import Astroid.Shared.BatchAmount

/-!
# Batch allowances

The batch verifiers of `shared/src/math.rs`.  One takes slices, one takes iterators and
decides by the first two limits what it is asked, and three are for one shape of limits each.
They accept the same batches with the same total, and accept exactly those that are covered
(`verifyBatchAllowance_eq_ok`); where the lengths fit they also fail with the same error.
-/

namespace Astroid

open Outcome BatchAmount LawfulBatchAmount

/-! ## The verifiers -/

section Verifiers

variable {T : Type} [BatchAmount T]

/-- The loop that adds up amounts. -/
def sumAmounts (total : T) : List T → Result T
  | [] => pure total
  | amount :: amounts => do
      require (isNegative amount = false) .invalidAmount
      let total ← safeAdd total amount
      sumAmounts total amounts

/-- The loop that holds every amount against its limit. -/
def sumPairs (total : T) : List (T × T) → Result T
  | [] => pure total
  | (amount, limit) :: items => do
      require (isNegative amount = false ∧ isNegative limit = false) .invalidAmount
      require (gt amount limit = false) .allowanceExceeded
      let total ← safeAdd total amount
      sumPairs total items

def verifyBatchAllowance (amounts limits : List T) : Result T :=
  if amounts = [] then
    match limits with
    | [] => pure zero
    | [limit] => do
        require (isNegative limit = false) .invalidAmount
        pure zero
    | _ => .error (.error .invalidInput)
  else
    match limits with
    | [] => .error (.error .invalidInput)
    | [limit] => do
        require (isNegative limit = false) .invalidAmount
        let total ← sumAmounts zero amounts
        require (gt total limit = false) .allowanceExceeded
        pure total
    | _ => do
        require (limits.length = amounts.length) .invalidInput
        sumPairs zero (amounts.zip limits)

/-- The loop that adds up costs. -/
def sumCosts (total : T) : List (T × T) → Result T
  | [] => pure total
  | (amount, multiplier) :: items => do
      require (isNegative amount = false ∧ isNegative multiplier = false) .invalidAmount
      let cost ← safeMul amount multiplier
      let total ← safeAdd total cost
      sumCosts total items

/-- The loop that holds every cost against its limit. -/
def sumPairCosts (total : T) : List ((T × T) × T) → Result T
  | [] => pure total
  | ((amount, multiplier), limit) :: items => do
      require (isNegative amount = false ∧ isNegative multiplier = false ∧
        isNegative limit = false) .invalidAmount
      let cost ← safeMul amount multiplier
      require (gt cost limit = false) .allowanceExceeded
      let total ← safeAdd total cost
      sumPairCosts total items

def verifyBatchAllowanceWithMultipliers (amounts multipliers limits : List T) : Result T :=
  if multipliers = [] then
    verifyBatchAllowance amounts limits
  else if multipliers.length ≠ amounts.length then
    .error (.error .invalidInput)
  else if amounts = [] then
    verifyBatchAllowance amounts limits
  else
    match limits with
    | [] => .error (.error .invalidInput)
    | [limit] => do
        require (isNegative limit = false) .invalidAmount
        let total ← sumCosts zero (amounts.zip multipliers)
        require (gt total limit = false) .allowanceExceeded
        pure total
    | _ => do
        require (limits.length = amounts.length) .invalidInput
        sumPairCosts zero ((amounts.zip multipliers).zip limits)

def verifyBatchAllowancePairs (items : List (T × T)) : Result T := sumPairs zero items

def verifyBatchAllowanceAggregate (amounts : List T) (limit : T) : Result T := do
  require (isNegative limit = false) .invalidAmount
  let total ← sumAmounts zero amounts
  require (gt total limit = false) .allowanceExceeded
  pure total

/-- The loop of the iterator version, which asks both iterators for their next item. -/
def sumLockstep (total : T) : List T → List T → Result T
  | amount :: amounts, limit :: limits => do
      require (isNegative amount = false ∧ isNegative limit = false) .invalidAmount
      require (gt amount limit = false) .allowanceExceeded
      let total ← safeAdd total amount
      sumLockstep total amounts limits
  | [], [] => pure total
  | _, _ => .error (.error .invalidInput)

def verifyBatchAllowanceIter (amounts limits : List T) : Result T :=
  match limits with
  | [] =>
      match amounts with
      | [] => pure zero
      | _ :: _ => .error (.error .invalidInput)
  | [firstLimit] => do
      require (isNegative firstLimit = false) .invalidAmount
      let total ← sumAmounts zero amounts
      require (gt total firstLimit = false) .allowanceExceeded
      pure total
  | firstLimit :: secondLimit :: limits =>
      match amounts with
      | [] => .error (.error .invalidInput)
      | firstAmount :: amounts => do
          require (isNegative firstAmount = false ∧ isNegative firstLimit = false) .invalidAmount
          require (gt firstAmount firstLimit = false) .allowanceExceeded
          match amounts with
          | [] => .error (.error .invalidInput)
          | secondAmount :: amounts => do
              require (isNegative secondAmount = false ∧ isNegative secondLimit = false)
                .invalidAmount
              require (gt secondAmount secondLimit = false) .allowanceExceeded
              let total ← safeAdd firstAmount secondAmount
              sumLockstep total amounts limits

end Verifiers

section Lawful

variable {T : Type} [LawfulBatchAmount T] {amounts limits multipliers : List T} {total r a b : T}

@[simp] theorem isNegative_eq_false : isNegative a = false ↔ 0 ≤ toInt a := by
  rw [← Bool.not_eq_true, isNegative_iff, not_lt]

@[simp] theorem gt_eq_false : gt a b = false ↔ toInt a ≤ toInt b := by
  rw [← Bool.not_eq_true, gt_iff, not_lt]

theorem toInt_inj : toInt a = toInt b ↔ a = b := toInt_injective.eq_iff

/-! ## The exact sum -/

/-- Between a total and a later one, every checked addition returns. -/
theorem exists_safeAdd (h0 : 0 ≤ toInt total + toInt a) (hr : toInt total + toInt a ≤ toInt r) :
    ∃ next, safeAdd total a = .ok next ∧ toInt next = toInt total + toInt a := by
  obtain ⟨next, hnext⟩ := exists_toInt r _ h0 hr
  exact ⟨next, (safeAdd_eq_ok _ _ _).2 hnext, hnext⟩

theorem sum_toInt_nonneg (h : ∀ a ∈ amounts, 0 ≤ toInt a) : 0 ≤ (amounts.map toInt).sum := by
  apply List.sum_nonneg
  intro x hx
  obtain ⟨a, ha, rfl⟩ := List.mem_map.1 hx
  exact h a ha

/-- The loop returns the exact sum of amounts that are not negative. -/
theorem sumAmounts_eq_ok (h0 : 0 ≤ toInt total) :
    sumAmounts total amounts = .ok r ↔
      (∀ a ∈ amounts, 0 ≤ toInt a) ∧ toInt r = toInt total + (amounts.map toInt).sum := by
  induction amounts generalizing total with
  | nil =>
      rw [sumAmounts, pure_eq_ok, ← toInt_inj, eq_comm]
      simp
  | cons a amounts ih =>
      simp only [sumAmounts, bind_eq_ok, require_eq_ok, isNegative_eq_false, List.forall_mem_cons,
        List.map_cons, List.sum_cons]
      constructor
      · rintro ⟨_, ha, next, hnext, hrest⟩
        rw [safeAdd_eq_ok] at hnext
        obtain ⟨hall, hr⟩ := (ih (by omega)).1 hrest
        exact ⟨⟨ha, hall⟩, by omega⟩
      · rintro ⟨⟨ha, hall⟩, hr⟩
        have hsum := sum_toInt_nonneg hall
        obtain ⟨next, hadd, hnext⟩ : ∃ next, safeAdd total a = .ok next ∧ _ :=
          exists_safeAdd (r := r) (by omega) (by omega)
        exact ⟨(), ha, next, hadd, (ih (by omega)).2 ⟨hall, by omega⟩⟩

/-- The loop returns the exact sum of amounts that are within their limits. -/
theorem sumPairs_eq_ok (h0 : 0 ≤ toInt total) (hlength : amounts.length = limits.length) :
    sumPairs total (amounts.zip limits) = .ok r ↔
      (∀ a ∈ amounts, 0 ≤ toInt a) ∧ (∀ l ∈ limits, 0 ≤ toInt l) ∧
        List.Forall₂ (fun a l => toInt a ≤ toInt l) amounts limits ∧
        toInt r = toInt total + (amounts.map toInt).sum := by
  induction amounts generalizing limits total with
  | nil =>
      obtain rfl := List.length_eq_zero_iff.1 hlength.symm
      rw [List.zip_nil_left, sumPairs, pure_eq_ok, ← toInt_inj, eq_comm]
      simp
  | cons a amounts ih =>
      cases limits with
      | nil => cases hlength
      | cons l limits =>
          rw [List.length_cons, List.length_cons, Nat.add_right_cancel_iff] at hlength
          simp only [List.zip_cons_cons, sumPairs, bind_eq_ok, require_eq_ok, isNegative_eq_false,
            gt_eq_false, List.forall_mem_cons, List.forall₂_cons, List.map_cons, List.sum_cons]
          constructor
          · rintro ⟨_, ⟨ha, hl⟩, _, hle, next, hnext, hrest⟩
            rw [safeAdd_eq_ok] at hnext
            obtain ⟨hamounts, hlimits, hwithin, hr⟩ := (ih (by omega) hlength).1 hrest
            exact ⟨⟨ha, hamounts⟩, ⟨hl, hlimits⟩, ⟨hle, hwithin⟩, by omega⟩
          · rintro ⟨⟨ha, hamounts⟩, ⟨hl, hlimits⟩, ⟨hle, hwithin⟩, hr⟩
            have hsum := sum_toInt_nonneg hamounts
            obtain ⟨next, hadd, hnext⟩ : ∃ next, safeAdd total a = .ok next ∧ _ :=
              exists_safeAdd (r := r) (by omega) (by omega)
            exact ⟨(), ⟨ha, hl⟩, (), hle, next, hadd,
              (ih (by omega) hlength).2 ⟨hamounts, hlimits, hwithin, by omega⟩⟩

/-! ## What is accepted -/

/-- The total is within the only limit, or every amount within its own. -/
def AmountsWithin (total : T) (amounts : List T) : List T → Prop
  | [limit] => toInt total ≤ toInt limit
  | limits => List.Forall₂ (fun a l => toInt a ≤ toInt l) amounts limits

/-- A batch that is covered, and its total. -/
structure Covered (amounts limits : List T) (total : T) : Prop where
  amounts_nonneg : ∀ a ∈ amounts, 0 ≤ toInt a
  limits_nonneg : ∀ l ∈ limits, 0 ≤ toInt l
  total_eq : toInt total = (amounts.map toInt).sum
  within : AmountsWithin total amounts limits

/-- One limit, or one for each amount. -/
def Compatible (amounts limits : List T) : Prop :=
  limits.length = 1 ∨ limits.length = amounts.length

theorem Covered.compatible (h : Covered amounts limits total) : Compatible amounts limits := by
  have hwithin := h.within
  match limits, hwithin with
  | [limit], _ => exact .inl rfl
  | [], hwithin => exact .inr hwithin.length_eq.symm
  | _ :: _ :: _, hwithin => exact .inr hwithin.length_eq.symm

/-- The verifier of one limit does what the slice version does with one. -/
theorem verifyBatchAllowanceAggregate_eq (amounts : List T) (limit : T) :
    verifyBatchAllowanceAggregate amounts limit = verifyBatchAllowance amounts [limit] := by
  cases amounts with
  | nil =>
      -- nothing is within every limit that is not negative
      unfold verifyBatchAllowanceAggregate verifyBatchAllowance
      rw [if_pos rfl]
      refine bind_congr_ok fun _ hlimit => ?_
      rw [require_eq_ok, isNegative_eq_false] at hlimit
      have hle : gt zero limit = false := by
        rw [gt_eq_false, toInt_zero]
        exact hlimit
      show (require (gt zero limit = false) .allowanceExceeded >>= fun _ => pure zero) = pure zero
      rw [require_pos hle]
      rfl
  | cons a amounts => rfl

theorem verifyBatchAllowanceAggregate_eq_ok {limit : T} :
    verifyBatchAllowanceAggregate amounts limit = .ok total ↔ Covered amounts [limit] total := by
  simp only [verifyBatchAllowanceAggregate, bind_eq_ok, require_eq_ok, isNegative_eq_false,
    gt_eq_false, pure_eq_ok, sumAmounts_eq_ok toInt_zero.ge]
  constructor
  · rintro ⟨_, hlimit, sum, ⟨hamounts, hsum⟩, _, hle, rfl⟩
    rw [toInt_zero, zero_add] at hsum
    exact ⟨hamounts, by simpa using hlimit, hsum, hle⟩
  · rintro ⟨hamounts, hlimit, hsum, hle⟩
    refine ⟨(), hlimit _ (List.mem_singleton_self _), total, ⟨hamounts, ?_⟩, (), hle, rfl⟩
    rw [toInt_zero, zero_add]
    exact hsum

/-- Any other number of limits has to be the number of amounts. -/
theorem verifyBatchAllowance_pairwise (hone : limits.length ≠ 1) :
    verifyBatchAllowance amounts limits = (do
      require (limits.length = amounts.length) .invalidInput
      sumPairs zero (amounts.zip limits)) := by
  match amounts, limits with
  | [], [] => rfl
  | [], [_] => exact absurd rfl hone
  | [], _ :: _ :: _ => rfl
  | _ :: _, [] => rfl
  | _ :: _, [_] => exact absurd rfl hone
  | _ :: _, _ :: _ :: _ => rfl

/-- **The verifier accepts the batches that are covered**, with their exact total. -/
theorem verifyBatchAllowance_eq_ok :
    verifyBatchAllowance amounts limits = .ok total ↔ Covered amounts limits total := by
  by_cases hone : limits.length = 1
  · obtain ⟨limit, rfl⟩ := List.length_eq_one_iff.1 hone
    rw [← verifyBatchAllowanceAggregate_eq]
    exact verifyBatchAllowanceAggregate_eq_ok
  · have hwithin : AmountsWithin total amounts limits ↔
        List.Forall₂ (fun a l => toInt a ≤ toInt l) amounts limits := by
      match limits with
      | [] => exact Iff.rfl
      | [_] => exact absurd rfl hone
      | _ :: _ :: _ => exact Iff.rfl
    rw [verifyBatchAllowance_pairwise hone]
    simp only [bind_eq_ok, require_eq_ok]
    constructor
    · rintro ⟨_, hlength, h⟩
      rw [sumPairs_eq_ok toInt_zero.ge hlength.symm, toInt_zero, zero_add] at h
      obtain ⟨hamounts, hlimits, hle, hsum⟩ := h
      exact ⟨hamounts, hlimits, hsum, hwithin.2 hle⟩
    · rintro ⟨hamounts, hlimits, hsum, hle⟩
      rw [hwithin] at hle
      refine ⟨(), hle.length_eq.symm, ?_⟩
      rw [sumPairs_eq_ok toInt_zero.ge hle.length_eq, toInt_zero, zero_add]
      exact ⟨hamounts, hlimits, hle, hsum⟩

/-! ## The other verifiers -/

theorem safeAdd_zero : safeAdd zero a = .ok a := by
  rw [safeAdd_eq_ok, toInt_zero, zero_add]

/-- Iterators that end together are read in pairs. -/
theorem sumLockstep_eq (hlength : amounts.length = limits.length) :
    sumLockstep total amounts limits = sumPairs total (amounts.zip limits) := by
  induction amounts generalizing limits total with
  | nil =>
      obtain rfl := List.length_eq_zero_iff.1 hlength.symm
      rfl
  | cons a amounts ih =>
      cases limits with
      | nil => cases hlength
      | cons l limits =>
          rw [List.length_cons, List.length_cons, Nat.add_right_cancel_iff] at hlength
          rw [sumLockstep, List.zip_cons_cons, sumPairs]
          exact bind_congr_ok fun _ _ => bind_congr_ok fun _ _ => bind_congr_ok fun _ _ => ih hlength

/-- Iterators that do not end together are refused at the latest where the first one ends. -/
theorem sumLockstep_ne (hlength : amounts.length ≠ limits.length) :
    sumLockstep total amounts limits ≠ .ok r := by
  induction amounts generalizing limits total with
  | nil =>
      cases limits with
      | nil => exact absurd rfl hlength
      | cons l limits => exact nofun
  | cons a amounts ih =>
      cases limits with
      | nil => exact nofun
      | cons l limits =>
          rw [List.length_cons, List.length_cons, ne_eq, Nat.add_right_cancel_iff] at hlength
          simp only [sumLockstep, ne_eq, bind_eq_ok]
          rintro ⟨_, _, _, _, next, _, hrest⟩
          exact ih hlength hrest

/-- The iterator version on more limits than one, once the amounts are as many. -/
theorem verifyBatchAllowanceIter_eq (h : Compatible amounts limits) :
    verifyBatchAllowanceIter amounts limits = verifyBatchAllowance amounts limits := by
  match limits with
  | [] =>
      have hnone : amounts.length = 0 := by simpa [Compatible, eq_comm] using h
      obtain rfl := List.length_eq_zero_iff.1 hnone
      rfl
  | [limit] => exact verifyBatchAllowanceAggregate_eq amounts limit
  | l₁ :: l₂ :: limits =>
      match amounts with
      | [] => simp [Compatible] at h
      | [_] => simp [Compatible] at h
      | a₁ :: a₂ :: amounts =>
          have hlength : amounts.length = limits.length := by
            simpa [Compatible, eq_comm] using h
          rw [verifyBatchAllowance_pairwise (by simp), require_pos (by simp [hlength])]
          simp only [verifyBatchAllowanceIter, List.zip_cons_cons, sumPairs, safeAdd_zero, ok_bind]
          refine bind_congr_ok fun _ _ => bind_congr_ok fun _ _ => bind_congr_ok fun _ _ =>
            bind_congr_ok fun _ _ => bind_congr_ok fun _ _ => ?_
          exact sumLockstep_eq hlength

/-- **The iterator version accepts the same batches**, whatever the lengths. -/
theorem verifyBatchAllowanceIter_eq_ok :
    verifyBatchAllowanceIter amounts limits = .ok total
      ↔ verifyBatchAllowance amounts limits = .ok total := by
  by_cases h : Compatible amounts limits
  · rw [verifyBatchAllowanceIter_eq h]
  · refine iff_of_false ?_ ?_
    · match limits with
      | [] =>
          match amounts with
          | [] => exact absurd (.inr rfl) h
          | _ :: _ => exact nofun
      | [_] => exact absurd (.inl rfl) h
      | l₁ :: l₂ :: limits =>
          match amounts with
          | [] => exact nofun
          | [_] =>
              simp only [verifyBatchAllowanceIter, bind_eq_ok]
              rintro ⟨_, _, _, _, h⟩
              cases h
          | a₁ :: a₂ :: amounts =>
              have hlength : amounts.length ≠ limits.length := by
                rintro hlength
                exact h (.inr (by simp [hlength]))
              simp only [verifyBatchAllowanceIter, bind_eq_ok]
              rintro ⟨_, _, _, _, _, _, _, _, next, _, hrest⟩
              exact sumLockstep_ne hlength hrest
    · intro hok
      exact h (verifyBatchAllowance_eq_ok.1 hok).compatible

/-- The verifier of pairs does what the slice version does with as many limits as amounts. -/
theorem verifyBatchAllowancePairs_eq (hlength : amounts.length = limits.length) :
    verifyBatchAllowancePairs (amounts.zip limits) = verifyBatchAllowance amounts limits := by
  by_cases hone : limits.length = 1
  · -- a single pair is held against its limit before it is added up, and after it as a total
    obtain ⟨l, rfl⟩ := List.length_eq_one_iff.1 hone
    obtain ⟨a, rfl⟩ := List.length_eq_one_iff.1 (hlength.trans hone)
    rw [← verifyBatchAllowanceAggregate_eq]
    simp only [verifyBatchAllowancePairs, verifyBatchAllowanceAggregate, List.zip_cons_cons,
      List.zip_nil_left, sumPairs, sumAmounts, safeAdd_zero, ok_bind]
    by_cases hl : isNegative l = false
    · by_cases ha : isNegative a = false
      · rw [require_pos ⟨ha, hl⟩, require_pos hl, require_pos ha]
        rfl
      · rw [require_neg fun h => ha h.1, require_pos hl, require_neg ha]
        rfl
    · rw [require_neg fun h => hl h.2, require_neg hl]
      rfl
  · rw [verifyBatchAllowance_pairwise hone, require_pos hlength.symm]
    rfl

section Multipliers

variable (hone : ∀ m ∈ multipliers, toInt m = 1)

/-- Once is the amount itself. -/
theorem safeMul_one (h : toInt b = 1) : safeMul a b = .ok a := by
  rw [safeMul_eq_ok, h, mul_one]

include hone

theorem sumCosts_eq (hlength : amounts.length = multipliers.length) :
    sumCosts total (amounts.zip multipliers) = sumAmounts total amounts := by
  induction amounts generalizing multipliers total with
  | nil => rfl
  | cons a amounts ih =>
      cases multipliers with
      | nil => cases hlength
      | cons m multipliers =>
          rw [List.forall_mem_cons] at hone
          rw [List.length_cons, List.length_cons, Nat.add_right_cancel_iff] at hlength
          have hm : isNegative m = false := by
            rw [isNegative_eq_false, hone.1]
            exact zero_le_one
          simp only [List.zip_cons_cons, sumCosts, sumAmounts, safeMul_one hone.1, hm, and_true,
            ok_bind]
          exact bind_congr_ok fun _ _ => bind_congr_ok fun _ _ => ih hone.2 hlength

theorem sumPairCosts_eq (hlength : amounts.length = multipliers.length) :
    sumPairCosts total ((amounts.zip multipliers).zip limits)
      = sumPairs total (amounts.zip limits) := by
  induction amounts generalizing multipliers limits total with
  | nil => rfl
  | cons a amounts ih =>
      cases multipliers with
      | nil => cases hlength
      | cons m multipliers =>
          cases limits with
          | nil => rfl
          | cons l limits =>
              rw [List.forall_mem_cons] at hone
              rw [List.length_cons, List.length_cons, Nat.add_right_cancel_iff] at hlength
              have hm : isNegative m = false := by
                rw [isNegative_eq_false, hone.1]
                exact zero_le_one
              simp only [List.zip_cons_cons, sumPairCosts, sumPairs, safeMul_one hone.1, hm,
                true_and, ok_bind]
              exact bind_congr_ok fun _ _ => bind_congr_ok fun _ _ => bind_congr_ok fun _ _ =>
                ih hone.2 hlength

/-- Multipliers of one change nothing. -/
theorem verifyBatchAllowanceWithMultipliers_eq
    (hlength : multipliers = [] ∨ multipliers.length = amounts.length) :
    verifyBatchAllowanceWithMultipliers amounts multipliers limits
      = verifyBatchAllowance amounts limits := by
  unfold verifyBatchAllowanceWithMultipliers
  split
  · rfl
  · rename_i hsome
    have hlength' := hlength.resolve_left hsome
    rw [if_neg (not_not.2 hlength')]
    split
    · rfl
    · rename_i hamounts
      unfold verifyBatchAllowance
      rw [if_neg hamounts]
      simp only [sumCosts_eq hone hlength'.symm, sumPairCosts_eq hone hlength'.symm]

end Multipliers

end Lawful

/-- **The batch verifiers agree.**  They return the same totals, fail with the same error where
the lengths are compatible, and accept exactly the batches that are covered. -/
theorem batch_verifiers_agree (T : Type) [LawfulBatchAmount T] (amounts limits : List T) :
    (∀ total, verifyBatchAllowanceIter amounts limits = .ok total
      ↔ verifyBatchAllowance amounts limits = .ok total) ∧
    (Compatible amounts limits →
      verifyBatchAllowanceIter amounts limits = verifyBatchAllowance amounts limits) ∧
    (∀ limit, limits = [limit] →
      verifyBatchAllowanceAggregate amounts limit = verifyBatchAllowance amounts limits) ∧
    (amounts.length = limits.length →
      verifyBatchAllowancePairs (amounts.zip limits) = verifyBatchAllowance amounts limits) ∧
    (∀ multipliers : List T, (∀ m ∈ multipliers, toInt m = 1) →
      (multipliers = [] ∨ multipliers.length = amounts.length →
        verifyBatchAllowanceWithMultipliers amounts multipliers limits
          = verifyBatchAllowance amounts limits) ∧
      (multipliers ≠ [] → multipliers.length ≠ amounts.length →
        verifyBatchAllowanceWithMultipliers amounts multipliers limits
          = .error (.error .invalidInput))) ∧
    ∀ total, verifyBatchAllowance amounts limits = .ok total ↔ Covered amounts limits total := by
  refine ⟨fun _ => verifyBatchAllowanceIter_eq_ok, verifyBatchAllowanceIter_eq, ?_,
    verifyBatchAllowancePairs_eq, ?_, fun _ => verifyBatchAllowance_eq_ok⟩
  · rintro limit rfl
    exact verifyBatchAllowanceAggregate_eq amounts limit
  · intro multipliers hone
    refine ⟨verifyBatchAllowanceWithMultipliers_eq hone, ?_⟩
    intro hsome hlength
    unfold verifyBatchAllowanceWithMultipliers
    rw [if_neg hsome, if_pos hlength]

/-! ## Two batches -/

/-- Payments of 30 and 20, and limits that are one too low for the second. -/
def thirtyTwenty : List I128 := [⟨30, by decide⟩, ⟨20, by decide⟩]

def fiftyNineteen : List I128 := [⟨50, by decide⟩, ⟨19, by decide⟩]

/-- A multiplier of one for each. -/
def unitMultipliers : List I128 := [⟨1, by decide⟩, ⟨1, by decide⟩]

/-- They are refused in the same way, and fit one limit of 50. -/
theorem batch_verifiers_agree_payments :
    verifyBatchAllowanceIter thirtyTwenty fiftyNineteen
        = verifyBatchAllowance thirtyTwenty fiftyNineteen ∧
      verifyBatchAllowancePairs (thirtyTwenty.zip fiftyNineteen)
        = verifyBatchAllowance thirtyTwenty fiftyNineteen ∧
      verifyBatchAllowance thirtyTwenty fiftyNineteen = .error (.error .allowanceExceeded) ∧
      verifyBatchAllowanceAggregate thirtyTwenty ⟨50, isI128_fifty⟩
        = .ok ⟨50, isI128_fifty⟩ ∧
      verifyBatchAllowanceWithMultipliers thirtyTwenty unitMultipliers [⟨50, isI128_fifty⟩]
        = .ok ⟨50, isI128_fifty⟩ ∧
      Covered thirtyTwenty [⟨50, isI128_fifty⟩] ⟨50, isI128_fifty⟩ := by
  obtain ⟨_, hiter, _, hpairs, _⟩ := batch_verifiers_agree I128 thirtyTwenty fiftyNineteen
  obtain ⟨_, _, hone, _, htimes, hcovered⟩ :=
    batch_verifiers_agree I128 thirtyTwenty [⟨50, isI128_fifty⟩]
  have hok : verifyBatchAllowance thirtyTwenty [⟨50, isI128_fifty⟩] = .ok ⟨50, isI128_fifty⟩ := rfl
  refine ⟨hiter (.inr rfl), hpairs rfl, rfl, (hone _ rfl).trans hok, ?_, (hcovered _).1 hok⟩
  have hunits : ∀ m ∈ unitMultipliers, toInt m = 1 := by decide
  exact ((htimes unitMultipliers hunits).1 (.inr rfl)).trans hok

end Astroid
