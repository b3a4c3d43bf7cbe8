import Astroid.Budget.Effects

/-!
# Moving an allowance from one budget to another

`transfer_allocation` moves a part of one limit to another and settles neither budget.
What the query reports after a window has lapsed is the limit and what carries over
(`leaves_lapsed`), and what carries over depends on the limit too.  So a transfer
between budgets with lapsed windows moves more than its amount, unless each of them
carries the same under its old and its new limit (`transferAllocation_conserves_iff`).
-/

namespace Astroid
namespace BudgetContract

open Outcome Budget Lazy

variable {self : Address} {env : Env self} {s s' : State} {id : String} {caller : Address}
  {b : Budget} {now : UInt64} {d x : ℤ} {w n : ℕ}

/-- The query `remaining` reports `x` of the budget. -/
def Reports (env : Env self) (s : State) (id : String) (x : ℤ) : Prop :=
  ∃ s', remaining env s id = .ok (x, s')

/-- At the time of the transfer, the one budget has `amount` less to spend and the other
`amount` more. -/
def Conserved (env : Env self) (s s' : State) (srcId dstId : String) (amount : ℤ) : Prop :=
  (∃ x, Reports env s srcId x ∧ Reports env s' srcId (x - amount)) ∧
    ∃ y, Reports env s dstId y ∧ Reports env s' dstId (y + amount)

/-! ## When a change of the limit is all that changes -/

namespace Budget

/-- The record with another limit. -/
def moved (b : Budget) (d : ℤ) : Budget := { b with limit := b.limit + d }

/-- With rollover, `n` windows lapsed together leave `credit`: the share of what is left
of the first and the whole limit of every other, each under the ceiling; and nothing on
the way overflows. -/
def Carries (b : Budget) (n : ℕ) (credit : ℤ) : Prop :=
  b.capacity ≤ i128Max ∧
    (b.rolloverCap = 0 → 1 < n →
      b.limit * (n - 1) ≤ i128Max ∧
      clamp b.rolloverCeiling (b.unspent * b.rolloverBps / bpsDenominator) + b.limit * (n - 1)
        ≤ i128Max) ∧
    credit = clamp b.rolloverCeiling
      (clamp b.rolloverCeiling (b.unspent * b.rolloverBps / bpsDenominator) + (n - 1) • b.limit) ∧
    b.limit + credit ≤ i128Max

/-- The window ends at a ledger time; if it has not lapsed, both capacities can be
represented; if it has, and rollover is enabled, the same carries over under both
limits. -/
structure Steady (b : Budget) (now : UInt64) (d : ℤ) : Prop where
  fits : ∀ w, b.window = some w → b.windowStart + w < 2 ^ 64
  running : (∀ w, b.window = some w → now.toNat < b.windowStart + w) →
    b.capacity ≤ i128Max ∧ b.capacity + d ≤ i128Max
  lapsed : ∀ w, b.window = some w → b.windowStart + w ≤ now.toNat → b.rolloverEnabled = true →
    ∃ credit, b.Carries ((now.toNat - b.windowStart) / w) credit ∧
      (b.moved d).Carries ((now.toNat - b.windowStart) / w) credit

/-! ## What the query reports -/

/-- What a record without a deficit leaves to spend. -/
inductive Leaves (b : Budget) (now : UInt64) : ℤ → Prop
  | settled (r : Budget) : b.settle now = .ok r → r.capacity ≤ i128Max →
      Leaves b now (r.capacity - r.spent)
  | unsettled : (∀ r, b.settle now ≠ .ok r) → Leaves b now 0

theorem effectiveRemaining_of_no_deficit (h : b.WellFormed) (hnone : b.allowDeficit = false) :
    b.effectiveRemaining = .ok x ↔ b.capacity ≤ i128Max ∧ x = b.capacity - b.spent := by
  have hspent := h.spent
  have hcapacity0 : 0 ≤ b.capacity := add_nonneg h.limit.1 h.credit.1
  have hceiling : b.ceiling = b.capacity := by simp [ceiling, hnone]
  rw [effectiveRemaining_eq_ok h, hceiling]
  refine and_congr_right fun hcapacity => and_iff_right_of_imp ?_
  rintro rfl
  unfold IsI128 i128Min i128Max at *
  omega

theorem leaves_settled {r : Budget} (hsettle : b.settle now = .ok r) :
    b.Leaves now x ↔ r.capacity ≤ i128Max ∧ x = r.capacity - r.spent := by
  constructor
  · rintro (⟨r', hr', hcapacity⟩ | hfails)
    · rw [hsettle, Except.ok.injEq] at hr'
      subst hr'
      exact ⟨hcapacity, rfl⟩
    · exact absurd hsettle (hfails r)
  · rintro ⟨hcapacity, rfl⟩
    exact .settled r hsettle hcapacity

theorem leaves_unsettled (hfails : ∀ r, b.settle now ≠ .ok r) : b.Leaves now x ↔ x = 0 := by
  constructor
  · rintro (⟨r, hr, _⟩ | _)
    · exact absurd hr (hfails r)
    · rfl
  · rintro rfl
    exact .unsettled hfails

/-- An open window leaves what was not spent of it. -/
theorem leaves_open (hopen : b.Open now.toNat) :
    b.Leaves now x ↔ b.capacity ≤ i128Max ∧ x = b.capacity - b.spent :=
  leaves_settled hopen.windowTransition

section Lapsed

variable (h : b.WellFormed) (hinside : ¬ b.Overspent) (hunexpired : b.Unexpired now.toNat)
  (hw : b.window = some w) (hfits : b.windowStart + w < 2 ^ 64)
  (hlapsed : b.windowStart + w ≤ now.toNat)

include h hinside hunexpired hw hfits hlapsed

/-- A lapsed window without rollover leaves the limit. -/
theorem leaves_dropped (hdisabled : b.rolloverEnabled = false) (hcapacity : b.capacity ≤ i128Max) :
    b.Leaves now x ↔ x = b.limit := by
  have hdue : b.Due now.toNat w ((now.toNat - b.windowStart) / w) :=
    ⟨hunexpired, hw, hfits, hlapsed, rfl, hcapacity⟩
  rw [leaves_settled ((settle_eq_ok h).2 (.closed w _ _ _ hdue (.dropped hinside hdisabled) rfl))]
  have hlimit := h.limit.2
  simp only [capacity, reopened, add_zero, sub_zero, hlimit, true_and]

/-- A lapsed window with rollover leaves the limit and what carries over. -/
theorem leaves_lapsed (henabled : b.rolloverEnabled = true) :
    b.Leaves now x ↔
      (∃ credit, b.Carries ((now.toNat - b.windowStart) / w) credit ∧ x = b.limit + credit) ∨
      (¬ (b.capacity ≤ i128Max ∧ b.Fits h ((now.toNat - b.windowStart) / w)) ∧ x = 0) := by
  by_cases hcarries : b.capacity ≤ i128Max ∧ b.Fits h ((now.toNat - b.windowStart) / w)
  · obtain ⟨hcapacity, hidle⟩ := hcarries
    have hdue : b.Due now.toNat w ((now.toNat - b.windowStart) / w) :=
      ⟨hunexpired, hw, hfits, hlapsed, rfl, hcapacity⟩
    rw [leaves_settled ((settle_eq_ok h).2
      (.closed w _ _ _ hdue (.carried hinside henabled hidle) rfl))]
    simp only [capacity, reopened, sub_zero]
    constructor
    · rintro ⟨hroom, rfl⟩
      exact .inl ⟨_, ⟨hcapacity, hidle, rfl, hroom⟩, rfl⟩
    · rintro (⟨_, ⟨_, _, rfl, hroom⟩, rfl⟩ | ⟨hnot, _⟩)
      · exact ⟨hroom, rfl⟩
      · exact absurd ⟨hcapacity, hidle⟩ hnot
  · have hfails : ∀ r, b.settle now ≠ .ok r := by
      intro r hr
      cases (settle_eq_ok h).1 hr with
      | same hopen _ =>
          obtain ⟨_, hlt⟩ := hopen.running w hw
          omega
      | closed w' periods credit deficit hdue hbalance _ =>
          obtain rfl := hdue.window_eq hw
          obtain rfl := hdue.periods_eq
          refine hcarries ⟨hdue.capacity, ?_⟩
          cases hbalance with
          | overspent hover => exact absurd hover hinside
          | carried _ _ hidle => exact hidle
          | dropped _ hdisabled =>
              rw [henabled] at hdisabled
              cases hdisabled
    rw [leaves_unsettled hfails]
    constructor
    · rintro rfl
      exact .inr ⟨hcarries, rfl⟩
    · rintro (⟨_, ⟨hcapacity, hidle, _⟩, _⟩ | ⟨_, rfl⟩)
      · exact absurd ⟨hcapacity, hidle⟩ hcarries
      · rfl

end Lapsed

/-- Nothing overflows where nothing accrues. -/
theorem fits_of_limit_zero (h : b.WellFormed) (hzero : b.limit = 0) :
    b.capacity ≤ i128Max ∧ b.Fits h n := by
  have hcapacity : b.capacity ≤ i128Max := by
    unfold capacity
    rw [hzero, zero_add]
    exact h.credit.2
  refine ⟨hcapacity, ?_⟩
  obtain ⟨hu0, humax⟩ := unspent_range h hcapacity
  intro _ _
  rw [hzero, zero_mul, add_zero]
  exact ⟨by decide, clamp_le.trans ((h.share.le _ hu0).trans humax)⟩

theorem Carries.nonneg {credit : ℤ} (h : b.WellFormed) (hcarries : b.Carries n credit) :
    0 ≤ credit := by
  obtain ⟨hcapacity, _, rfl, _⟩ := hcarries
  exact Carry.settled_nonneg (p := h.share) (rolloverCeiling_nonneg h) h.limit.1
    (unspent_range h hcapacity).1

theorem not_overspent_of_none (hnone : b.allowDeficit = false) : ¬ b.Overspent := by
  rintro ⟨hallow, _⟩
  rw [hnone] at hallow
  cases hallow

/-- An open window has to stay representable. -/
theorem steady_open (hopen : b.Open now.toNat) :
    b.Steady now d ↔ b.capacity ≤ i128Max ∧ b.capacity + d ≤ i128Max := by
  constructor
  · intro hsteady
    exact hsteady.running fun w hw => (hopen.running w hw).2
  · intro hroom
    refine ⟨fun w hw => (hopen.running w hw).1, fun _ => hroom, ?_⟩
    intro w hw hlapsed
    exact absurd (hopen.running w hw).2 (not_lt.2 hlapsed)

/-- A lapsed window has to carry the same, where it carries anything. -/
theorem steady_lapsed (hw : b.window = some w) (hfits : b.windowStart + w < 2 ^ 64)
    (hlapsed : b.windowStart + w ≤ now.toNat) :
    b.Steady now d ↔ (b.rolloverEnabled = true → ∃ credit,
      b.Carries ((now.toNat - b.windowStart) / w) credit ∧
      (b.moved d).Carries ((now.toNat - b.windowStart) / w) credit) := by
  constructor
  · intro hsteady
    exact hsteady.lapsed w hw hlapsed
  · intro hcarry
    refine ⟨?_, ?_, ?_⟩
    · intro w' hw'
      obtain rfl := Option.some.inj (hw.symm.trans hw')
      exact hfits
    · intro hrunning
      exact absurd (hrunning w hw) (not_lt.2 hlapsed)
    · intro w' hw' _
      obtain rfl := Option.some.inj (hw.symm.trans hw')
      exact hcarry

section Shifts

variable (h : b.Sound) (h' : (b.moved d).Sound) (hnone : b.allowDeficit = false)
  (hunexpired : b.Unexpired now.toNat)

include h h' hnone hunexpired

/-- With rollover, what carries over decides.  A record that cannot be settled reports
nothing, and one whose limit is zero can be settled, so neither makes up for the other. -/
theorem shifts_lapsed (hw : b.window = some w) (hfits : b.windowStart + w < 2 ^ 64)
    (hlapsed : b.windowStart + w ≤ now.toNat) (henabled : b.rolloverEnabled = true) (hd : d ≠ 0) :
    (∃ x, b.Leaves now x ∧ (b.moved d).Leaves now (x + d)) ↔ ∃ credit,
      b.Carries ((now.toNat - b.windowStart) / w) credit ∧
      (b.moved d).Carries ((now.toNat - b.windowStart) / w) credit := by
  have hlimit : 0 ≤ b.limit := h.wellFormed.limit.1
  have hlimit' : 0 ≤ (b.moved d).limit := h'.wellFormed.limit.1
  have hmoved : (b.moved d).limit = b.limit + d := rfl
  rw [exists_congr fun x => and_congr
    (leaves_lapsed h.wellFormed (not_overspent_of_none hnone) hunexpired hw hfits hlapsed henabled)
    (leaves_lapsed (b := b.moved d) h'.wellFormed (not_overspent_of_none hnone) hunexpired hw hfits
      hlapsed henabled)]
  constructor
  · rintro ⟨x, ⟨credit, hcarries, hx⟩ | ⟨hnot, hx⟩, ⟨credit', hcarries', hx'⟩ | ⟨hnot', hx'⟩⟩
    · obtain rfl : credit' = credit := by linarith
      exact ⟨_, hcarries, hcarries'⟩
    · have hcredit := hcarries.nonneg h.wellFormed
      exact absurd (fits_of_limit_zero h'.wellFormed (by omega)) hnot'
    · have hcredit := hcarries'.nonneg h'.wellFormed
      exact absurd (fits_of_limit_zero h.wellFormed (by omega)) hnot
    · exact absurd (by omega) hd
  · rintro ⟨credit, hcarries, hcarries'⟩
    refine ⟨_, .inl ⟨credit, hcarries, rfl⟩, .inl ⟨credit, hcarries', ?_⟩⟩
    rw [hmoved]
    ring

/-- Without rollover the limit is all there is. -/
theorem shifts_dropped (hw : b.window = some w) (hfits : b.windowStart + w < 2 ^ 64)
    (hlapsed : b.windowStart + w ≤ now.toNat) (hdisabled : b.rolloverEnabled = false) :
    ∃ x, b.Leaves now x ∧ (b.moved d).Leaves now (x + d) := by
  have hcapacity : b.capacity ≤ i128Max := by
    unfold capacity
    rw [h.credit hdisabled, add_zero]
    exact h.wellFormed.limit.2
  have hcapacity' : (b.moved d).capacity ≤ i128Max := by
    unfold capacity
    rw [h'.credit hdisabled, add_zero]
    exact h'.wellFormed.limit.2
  refine ⟨b.limit, ?_, ?_⟩
  · exact (leaves_dropped h.wellFormed (not_overspent_of_none hnone) hunexpired hw hfits hlapsed
      hdisabled hcapacity).2 rfl
  · exact (leaves_dropped (b := b.moved d) h'.wellFormed (not_overspent_of_none hnone) hunexpired hw
      hfits hlapsed hdisabled hcapacity').2 rfl

/-- **A change of the limit is all that changes** exactly for a steady record. -/
theorem shifts_iff (hd : d ≠ 0) :
    (∃ x, b.Leaves now x ∧ (b.moved d).Leaves now (x + d)) ↔ b.Steady now d := by
  by_cases hopen : b.Open now.toNat
  · have hopen' : (b.moved d).Open now.toNat := ⟨hopen.unexpired, hopen.running⟩
    have hcapacity : (b.moved d).capacity = b.capacity + d := by
      simp only [capacity, moved]
      ring
    rw [steady_open hopen, exists_congr fun x => and_congr (leaves_open hopen) (leaves_open hopen'),
      hcapacity]
    constructor
    · rintro ⟨x, ⟨hroom, _⟩, hroom', _⟩
      exact ⟨hroom, hroom'⟩
    · rintro ⟨hroom, hroom'⟩
      refine ⟨_, ⟨hroom, rfl⟩, hroom', ?_⟩
      show b.capacity - b.spent + d = b.capacity + d - b.spent
      ring
  · have hlate : ∃ w, b.window = some w ∧
        (b.windowStart + w < 2 ^ 64 → b.windowStart + w ≤ now.toNat) := by
      by_contra hnever
      refine hopen ⟨hunexpired, ?_⟩
      intro w hw
      by_contra hshut
      refine hnever ⟨w, hw, ?_⟩
      omega
    obtain ⟨w, hw, hlate⟩ := hlate
    by_cases hfits : b.windowStart + w < 2 ^ 64
    · have hlapsed := hlate hfits
      rw [steady_lapsed hw hfits hlapsed]
      by_cases henabled : b.rolloverEnabled = true
      · rw [shifts_lapsed h h' hnone hunexpired hw hfits hlapsed henabled hd]
        exact ⟨fun hcarry _ => hcarry, fun hcarry => hcarry henabled⟩
      · have hdisabled : b.rolloverEnabled = false := Bool.not_eq_true _ ▸ henabled
        have hshifts := shifts_dropped h h' hnone hunexpired hw hfits hlapsed hdisabled
        exact ⟨fun _ hrolls => absurd hrolls henabled, fun _ => hshifts⟩
    · -- neither record can be settled
      have hfails : ∀ r, b.settle now ≠ .ok r := fun r hr => hfits (windowTransition_fits hr hw)
      have hfails' : ∀ r, (b.moved d).settle now ≠ .ok r :=
        fun r hr => hfits (windowTransition_fits (b := b.moved d) hr hw)
      rw [exists_congr fun x => and_congr (leaves_unsettled hfails) (leaves_unsettled hfails')]
      constructor
      · rintro ⟨x, rfl, hx⟩
        exact absurd (by omega) hd
      · intro hsteady
        exact absurd (hsteady.fits w hw) hfits

end Shifts

end Budget

/-- What the query reports of a budget that has started and has no deficit. -/
theorem reports_iff (hb : s.budget id = some b) (h : b.WellFormed)
    (hnone : b.allowDeficit = false) (hstarted : b.windowStart ≤ env.timestamp.toNat) :
    Reports env s id x ↔ b.Leaves env.timestamp x := by
  have hload : s.load id = .ok b := load_eq_ok.2 hb
  simp only [Reports, remaining, hload, ok_bind, if_neg (not_lt.2 hstarted)]
  cases hsettle : b.windowTransition env.timestamp.toNat with
  | error e =>
      have hfails : ∀ r, b.settle env.timestamp ≠ .ok r := by
        intro r hr
        have hok : b.windowTransition env.timestamp.toNat = .ok r := hr
        rw [hsettle] at hok
        cases hok
      rw [leaves_unsettled hfails]
      constructor
      · rintro ⟨_, hpure⟩
        cases hpure
        rfl
      · rintro rfl
        exact ⟨s, rfl⟩
  | ok r =>
      have hsettles : b.Settles h env.timestamp.toNat r := (settle_eq_ok h).1 hsettle
      have hterms : r.allowDeficit = false := by
        obtain ⟨_, _, _, _, rfl⟩ := settle_terms hsettle
        exact hnone
      rw [leaves_settled hsettle]
      simp only [bind_eq_ok, effectiveRemaining_of_no_deficit hsettles.wellFormed hterms, pure_eq_ok,
        Prod.mk.injEq]
      constructor
      · rintro ⟨_, _, ⟨hcapacity, rfl⟩, rfl, _⟩
        exact ⟨hcapacity, rfl⟩
      · rintro ⟨hcapacity, rfl⟩
        exact ⟨_, _, ⟨hcapacity, rfl⟩, rfl, rfl⟩

/-! ## The transfer -/

theorem transferAllocation_unexpired {srcId dstId : String} {amount : ℤ} {src dst : Budget}
    (hsrc : s.budget srcId = some src) (hdst : s.budget dstId = some dst)
    (h : transferAllocation env s caller srcId dstId amount = .ok s') :
    src.Unexpired env.timestamp.toNat ∧ dst.Unexpired env.timestamp.toNat := by
  simp only [transferAllocation, bind_eq_ok, requireOwner_eq_ok, load_eq_ok,
    requireNotExpired_eq_ok] at h
  obtain ⟨_, _, _, _, src', ⟨_, hsrc', _⟩, dst', hdst', _, _, _, _, _, _, _, hs, _, hd, _⟩ := h
  rw [hsrc, Option.some.injEq] at hsrc'
  rw [hdst, Option.some.injEq] at hdst'
  subst hsrc' hdst'
  exact ⟨hs, hd⟩

/-- **A transfer conserves what the two budgets can spend** exactly when both records are
steady under it. -/
theorem transferAllocation_conserves_iff {srcId dstId : String} {amount : I128} {src dst : Budget}
    (hreach : (machine self).Reachable s) (hsrc : s.budget srcId = some src)
    (hdst : s.budget dstId = some dst) (hsrcStarted : src.windowStart ≤ env.timestamp.toNat)
    (hdstStarted : dst.windowStart ≤ env.timestamp.toNat) (hsrcNone : src.allowDeficit = false)
    (hdstNone : dst.allowDeficit = false)
    (h : transferAllocation env s caller srcId dstId amount = .ok s') :
    Conserved env s s' srcId dstId amount ↔
      src.Steady env.timestamp (-amount) ∧ dst.Steady env.timestamp amount := by
  obtain ⟨hsrcLive, hdstLive⟩ := transferAllocation_unexpired hsrc hdst h
  obtain ⟨hne, src', dst', hsrc', hdst', hpos, hcovered, hroom, rfl⟩ := transferAllocation_ok h
  rw [hsrc, Option.some.injEq] at hsrc'
  rw [hdst, Option.some.injEq] at hdst'
  subst hsrc' hdst'
  have hsrcSound := sound_reachable hreach hsrc
  have hdstSound := sound_reachable hreach hdst
  have hsrcLimit := hsrcSound.wellFormed.limit
  have hdstLimit := hdstSound.wellFormed.limit
  have hspent := hsrcSound.wellFormed.spent.1
  have hsrcSound' : (src.moved (-amount)).Sound := hsrcSound.limited (by omega)
  have hdstSound' : (dst.moved amount).Sound := hdstSound.limited (by omega)
  have hsrcAfter : ((s.store srcId { src with limit := src.limit - amount.1 }).store dstId
      { dst with limit := dst.limit + amount.1 }).budget srcId = some (src.moved (-amount)) := by
    rw [store_budget_ne hne, store_budget, moved, sub_eq_add_neg]
  have hdstAfter : ((s.store srcId { src with limit := src.limit - amount.1 }).store dstId
      { dst with limit := dst.limit + amount.1 }).budget dstId = some (dst.moved amount) :=
    store_budget
  refine and_congr ?_ ?_
  · rw [← shifts_iff hsrcSound hsrcSound' hsrcNone hsrcLive (neg_ne_zero.2 hpos.ne')]
    refine exists_congr fun x => and_congr ?_ ?_
    · exact reports_iff hsrc hsrcSound.wellFormed hsrcNone hsrcStarted
    · rw [sub_eq_add_neg]
      exact reports_iff hsrcAfter hsrcSound'.wellFormed hsrcNone hsrcStarted
  · rw [← shifts_iff hdstSound hdstSound' hdstNone hdstLive hpos.ne']
    refine exists_congr fun y => and_congr ?_ ?_
    · exact reports_iff hdst hdstSound.wellFormed hdstNone hdstStarted
    · exact reports_iff hdstAfter hdstSound'.wellFormed hdstNone hdstStarted

/-! ## Two transfers -/

/-- Account 1 allocates 100 a day for each of two budgets, one of which rolls over. -/
def twoBudgets : Script Call :=
  [(signedBy 0 [1], .allocate (.account 1) "eng" ⟨100, isI128_hundred⟩ .daily true 0),
    (signedBy 0 [1], .allocate (.account 1) "ops" ⟨100, isI128_hundred⟩ .daily false 0)]

/-- The transfer of 50. -/
def reallocation : Call := .transferAllocation (.account 1) "eng" "ops" ⟨50, isI128_fifty⟩

/-- Within the first day, the transfer moves 50. -/
theorem transferAllocation_conserves_iff_early :
    let s := play deployed twoBudgets
    Conserved (signedBy 1 [1]) s (play s [(signedBy 1 [1], reallocation)]) "eng" "ops" 50 := by
  have hreach : (machine (.contract 0)).Reachable (play deployed twoBudgets) :=
    Deployment.reachable_play deployed_fresh rfl
  have htransfer : transferAllocation (signedBy 1 [1]) (play deployed twoBudgets) (.account 1) "eng"
      "ops" (⟨50, isI128_fifty⟩ : I128) = .ok (play (play deployed twoBudgets)
        [(signedBy 1 [1], reallocation)]) := rfl
  refine (transferAllocation_conserves_iff hreach rfl rfl (by decide) (by decide) rfl rfl
    htransfer).2 ⟨?_, ?_⟩
  · exact (steady_open ⟨fun hpast => hpast.1 rfl, by rintro w ⟨⟩; decide⟩).2 (by decide)
  · exact (steady_open ⟨fun hpast => hpast.1 rfl, by rintro w ⟨⟩; decide⟩).2 (by decide)

/-- **A transfer after the window lapsed loses allowance.**  At the end of the first day
200 remain, and after a transfer of 50 only 100. -/
theorem not_transferAllocation_conserves :
    ¬ ∀ (s s' : State) (env : Env (.contract 0)) (caller : Address) (srcId dstId : String)
      (amount : I128) (src dst : Budget), (machine (.contract 0)).Reachable s →
      s.budget srcId = some src → s.budget dstId = some dst →
      src.windowStart ≤ env.timestamp.toNat → dst.windowStart ≤ env.timestamp.toNat →
      src.allowDeficit = false → dst.allowDeficit = false →
      transferAllocation env s caller srcId dstId amount = .ok s' →
      Conserved env s s' srcId dstId amount := by
  intro h
  have hreach : (machine (.contract 0)).Reachable (play deployed twoBudgets) :=
    Deployment.reachable_play deployed_fresh rfl
  obtain ⟨⟨x, ⟨_, hbefore⟩, _, hafter⟩, _⟩ := h _ _ (signedBy 86400 [1]) (.account 1) "eng" "ops"
    ⟨50, isI128_fifty⟩ _ _ hreach rfl rfl (by decide) (by decide) rfl rfl rfl
  cases hbefore
  cases hafter

end BudgetContract
end Astroid
