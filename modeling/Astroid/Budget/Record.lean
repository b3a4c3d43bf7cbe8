import Astroid.Shared.Rollover
import Astroid.Wallet.Record

/-!
# The budget's records

The stored types of `budget/src/lib.rs` and the pure functions on them: what a window
is, what rolls over at its end, and the hook that settles every window that has
lapsed.  Seconds are natural numbers; sums of them are checked where the source
checks them.
-/

namespace Astroid
namespace BudgetContract

open WalletContract (BudgetError)

/-- `Period`. -/
inductive Period where
  | none
  | daily
  | weekly
  | monthly
  | custom
  deriving DecidableEq, Repr

/-- `Budget`. -/
structure Budget where
  owner : Address
  limit : ℤ
  spent : ℤ
  period : Period
  periodSeconds : ℕ
  windowStart : ℕ
  rolloverEnabled : Bool
  rolloverCredit : ℤ
  rolloverCap : ℤ
  rolloverMaxBps : ℤ
  rolloverBps : ℤ
  allowDeficit : Bool
  deficitAmount : ℤ
  expiresAt : ℕ
  state : ResourceState
  deriving DecidableEq

/-- `AssetSpend`. -/
structure AssetSpend where
  token : Address
  amount : I128

/-- `AssetBudget`. -/
structure AssetBudget where
  limit : ℤ
  spent : ℤ
  windowSeconds : ℕ
  windowStart : ℕ
  rolloverEnabled : Bool
  rolloverCredit : ℤ
  rolloverBps : ℤ
  maxRolloverCap : ℤ
  deriving DecidableEq

/-- `RolloverOutcome`. -/
structure RolloverOutcome where
  carryOver : ℤ
  periods : ℕ
  isDue : Bool
  deriving DecidableEq

/-- `MAX_BATCH_TOKENS`. -/
def maxBatchTokens : ℕ := 16

/-! ## Seconds -/

/-- `u64::checked_add`. -/
def checkedAddSeconds (a b : ℕ) : Result ℕ :=
  if a + b < 2 ^ 64 then .ok (a + b) else .error (.error .overflow)

@[simp] theorem checkedAddSeconds_eq_ok {a b c : ℕ} :
    checkedAddSeconds a b = .ok c ↔ a + b < 2 ^ 64 ∧ a + b = c := by
  unfold checkedAddSeconds
  split <;> simp_all

/-- `u64` arithmetic that stops at the largest value. -/
def saturateSeconds (n : ℕ) : ℕ := min n (2 ^ 64 - 1)

/-- `window_of`. -/
def windowOf (period : Period) (periodSeconds : ℕ) : Option ℕ :=
  match period with
  | .none => .none
  | .daily => some secondsPerDay
  | .weekly => some secondsPerWeek
  | .monthly => some secondsPerMonth
  | .custom => if periodSeconds = 0 then .none else some periodSeconds

/-! ## Caps -/

/-- `apply_cap`. -/
def applyCap (credit cap : ℤ) : ℤ := if cap ≠ 0 ∧ cap < credit then cap else credit

/-- `percentage_of_limit`. -/
def percentageOfLimit (limit bps : ℤ) : Result ℤ :=
  if bps = 0 then pure 0 else percentage limit bps

/-- `require_valid_limit`. -/
def requireValidLimit (limit : ℤ) : Result Unit := require (0 ≤ limit) .invalidAmount

namespace Budget

variable (b : Budget)

/-- The window of the budget. -/
def window : Option ℕ := windowOf b.period b.periodSeconds

/-- `effective_rollover_cap`. -/
def effectiveRolloverCap : Result ℤ := do
  let pctCap ← percentageOfLimit b.limit b.rolloverMaxBps
  pure (if b.rolloverCap = 0 then pctCap
    else if pctCap = 0 then b.rolloverCap
    else min b.rolloverCap pctCap)

/-- `effective_remaining`. -/
def effectiveRemaining : Result ℤ := do
  let capacity ← checkedAdd b.limit b.rolloverCredit
  if b.allowDeficit = true ∧ 0 < b.deficitAmount then do
    let net ← checkedSub capacity b.deficitAmount
    checkedSub net b.spent
  else
    checkedSub capacity b.spent

/-! ## Windows -/

/-- `is_window_expired`: a window does not include its end. -/
def isWindowExpired (now : ℕ) : Result Bool :=
  match b.window with
  | none => .ok false
  | some window => do
      let windowEnd ← checkedAddSeconds b.windowStart window
      pure (decide (windowEnd ≤ now))

/-- `accrue_idle_periods`: a capped budget saturates. -/
def accrueIdlePeriods (credit : ℤ) (idle : ℤ) : Result ℤ :=
  if b.rolloverCap ≠ 0 then
    .ok (saturatingAddI128 credit (saturatingMulI128 b.limit idle))
  else do
    let accrued ← checkedMul b.limit idle
    checkedAdd credit accrued

/-- The carry over the boundary of a window with rollover enabled. -/
def enabledCarry (leftover : ℤ) (periods : ℕ) : Result ℤ := do
  let unspent := if 0 < leftover then leftover else 0
  let cap ← b.effectiveRolloverCap
  let credit ← calculateBudgetRollover unspent b.rolloverBps cap
  if 1 < periods then do
    let credit ← b.accrueIdlePeriods credit (periods - 1)
    pure (applyCap credit cap)
  else
    pure credit

/-- `calculate_rollover`. -/
def calculateRollover (now : ℕ) : Result RolloverOutcome :=
  match b.window with
  | none => .ok ⟨b.rolloverCredit, 0, false⟩
  | some window => do
      let isDue ← b.isWindowExpired now
      if isDue = false then
        pure ⟨b.rolloverCredit, 0, false⟩
      else do
        let periods := (now - b.windowStart) / window
        let capacity ← checkedAdd b.limit b.rolloverCredit
        let leftover ← checkedSub capacity b.spent
        let carry ←
          if b.allowDeficit = true ∧ capacity < b.spent then
            checkedSub capacity b.spent
          else if b.rolloverEnabled = true then
            b.enabledCarry leftover periods
          else
            pure 0
        pure ⟨carry, periods, true⟩

/-- The check of `window_transition` and `require_not_expired`. -/
def requireNotExpired (now : ℕ) : Result Unit :=
  require (¬ (b.expiresAt ≠ 0 ∧ b.expiresAt ≤ now)) .budgetExpired

/-- `window_transition`, the hook: settle every window that has lapsed.  Its events carry
differences that were computed before. -/
def windowTransition (now : ℕ) : Result Budget := do
  b.requireNotExpired now
  let outcome ← b.calculateRollover now
  if outcome.isDue = false then
    pure b
  else do
    let window ← okOr b.window .invalidInput
    let capacity ← checkedAdd b.limit b.rolloverCredit
    let windowStart := saturateSeconds (b.windowStart + saturateSeconds (outcome.periods * window))
    if b.allowDeficit = true ∧ capacity < b.spent then do
      let deficit ← checkedSub b.spent capacity
      let deficitAmount ← checkedAdd b.deficitAmount deficit
      pure { b with
        rolloverCredit := 0
        deficitAmount := deficitAmount
        spent := 0
        windowStart := windowStart }
    else
      pure { b with
        rolloverCredit := outcome.carryOver
        spent := 0
        windowStart := windowStart }

end Budget

/-- `asset_window_transition`. -/
def AssetBudget.windowTransition (b : AssetBudget) (now : ℕ) : AssetBudget :=
  if b.windowSeconds = 0 ∨ now - b.windowStart < b.windowSeconds then
    b
  else
    let periods := (now - b.windowStart) / b.windowSeconds
    { b with
      rolloverCredit := if b.rolloverEnabled = true then carried else 0
      spent := 0
      windowStart := saturateSeconds (b.windowStart + saturateSeconds (periods * b.windowSeconds)) }
where
  /-- What carries over; an overflow carries nothing. -/
  carried : ℤ :=
    let capacity :=
      match checkedAdd b.limit b.rolloverCredit with
      | .ok capacity => capacity
      | .error _ => b.limit
    let unspent := max (saturatingSubI128 capacity b.spent) 0
    match calculateBudgetRollover unspent b.rolloverBps b.maxRolloverCap with
    | .ok credit => credit
    | .error _ => 0

/-! ## Faults of the spending entrypoints -/

/-- Why an entrypoint that reports `BudgetError` did not return. -/
inductive SpendFault where
  | budget (e : BudgetError)
  | trap
  deriving DecidableEq

abbrev SpendResult (α : Type) := Except SpendFault α

/-- `From<Error> for BudgetError`. -/
def ofError : Error → BudgetError
  | .notFound => .notFound
  | .unauthorized => .unauthorized
  | .invalidInput => .invalidInput
  | .overflow => .overflow
  | .invalidAmount => .invalidAmount
  | .budgetExceeded => .budgetExceeded
  | .budgetFrozen => .budgetFrozen
  | .budgetArchived => .budgetArchived
  | .assetNotAuthorized => .assetNotAuthorized
  | .budgetExpired => .budgetExpired
  | _ => .invalidInput

/-- The `?` of a spending entrypoint on a callee that returns `Error`. -/
def intoSpend {α : Type} : Result α → SpendResult α
  | .ok a => .ok a
  | .error (.error e) => .error (.budget (ofError e))
  | .error (.milestone _) => .error .trap
  | .error .trap => .error .trap

/-- The conversion back, `From<BudgetError> for Error`. -/
def ofSpend {α : Type} : SpendResult α → Result α
  | .ok a => .ok a
  | .error (.budget e) => .error (.error e.toError)
  | .error .trap => .error .trap

/-- `if !p { return Err(e) }` in a spending entrypoint. -/
def requireSpend (p : Prop) [Decidable p] (e : BudgetError) : SpendResult Unit :=
  Outcome.ensure p (.budget e)

section Inversion

variable {α : Type} {a : α} {r : Result α} {r' : SpendResult α}

@[simp] theorem intoSpend_eq_ok : intoSpend r = .ok a ↔ r = .ok a := by
  rcases r with (e | m | _) | x <;> simp [intoSpend]

@[simp] theorem ofSpend_eq_ok : ofSpend r' = .ok a ↔ r' = .ok a := by
  rcases r' with (e | _) | x <;> simp [ofSpend]

end Inversion

end BudgetContract
end Astroid
