import Astroid.Budget.Record
import Astroid.Shared.Host

/-!
# The budget contract

`budget/src/lib.rs`, entrypoint by entrypoint.  Storage is one field for each key of
`DataKey`.  Every spend and every query evaluates the hook first, and stores what it
settled only when the call returns.
-/

namespace Astroid
namespace BudgetContract

structure State where
  admin : Option Address
  budget : String → Option Budget
  assetBudget : String → Address → Option AssetBudget

/-! ## Storage -/

namespace State

variable (s : State)

/-- `load`. -/
def load (id : String) : Result Budget := okOr (s.budget id) .notFound

/-- `store`. -/
def store (id : String) (b : Budget) : State :=
  { s with budget := Function.update s.budget id (some b) }

def loadAsset (id : String) (token : Address) : Result AssetBudget :=
  okOr (s.assetBudget id token) .assetNotAuthorized

def storeAsset (id : String) (token : Address) (b : AssetBudget) : State :=
  { s with
    assetBudget := Function.update s.assetBudget id
      (Function.update (s.assetBudget id) token (some b)) }

end State

variable {self : Address} (env : Env self) (s : State)

/-! ## Guards -/

/-- `require_owner`. -/
def requireOwner (id : String) (caller : Address) : Result Budget := do
  requireAuth env caller
  let b ← s.load id
  require (b.owner = caller) .unauthorized
  pure b

/-- `require_active`. -/
def requireActive (b : Budget) : Result Unit :=
  match b.state with
  | .active => .ok ()
  | .frozen | .paused => .error (.error .budgetFrozen)
  | .archived => .error (.error .budgetArchived)

/-- `require_not_archived`. -/
def requireNotArchived (b : Budget) : Result Unit :=
  require (b.state ≠ .archived) .budgetArchived

/-- `require_started`. -/
def requireStarted (b : Budget) : SpendResult Unit :=
  requireSpend (b.windowStart ≤ env.timestamp.toNat) .budgetNotActive

/-- The bounds of a rollover percentage. -/
def requireRolloverBps (rolloverBps : ℤ) : Result Unit := do
  requireValidLimit rolloverBps
  require (rolloverBps ≤ bpsDenominator) .invalidInput

/-! ## Allocation -/

def initializeContract (admin : Address) : Result State := do
  require (s.admin = none) .alreadyInitialized
  pure { s with admin := some admin }

/-- `allocate_internal`.  A deficit needs a window to be repaid in. -/
def allocateInternal (owner : Address) (id : String) (limit : ℤ) (period : Period)
    (rolloverEnabled : Bool) (rolloverBps rolloverCap : ℤ) (allowDeficit : Bool)
    (startAt expiresAt : ℕ) : Result State := do
  requireAuth env owner
  requireNonEmpty id
  requireValidLimit limit
  requireValidLimit rolloverCap
  requireRolloverBps rolloverBps
  let now := env.timestamp.toNat
  require (¬ (expiresAt ≠ 0 ∧ (expiresAt ≤ now ∨ expiresAt ≤ startAt))) .invalidInput
  require (¬ (allowDeficit = true ∧ windowOf period 0 = none)) .invalidInput
  require (s.budget id = none) .alreadyExists
  pure (s.store id
    { owner := owner
      limit := limit
      spent := 0
      period := period
      periodSeconds := 0
      windowStart := startAt
      rolloverEnabled := rolloverEnabled
      rolloverCredit := 0
      rolloverCap := rolloverCap
      rolloverMaxBps := 0
      rolloverBps := rolloverBps
      allowDeficit := allowDeficit
      deficitAmount := 0
      expiresAt := expiresAt
      state := .active })

/-- `allocate_at`. -/
def allocateAt (owner : Address) (id : String) (limit : ℤ) (period : Period)
    (rolloverEnabled allowDeficit : Bool) (startAt expiresAt : ℕ) : Result State :=
  allocateInternal env s owner id limit period rolloverEnabled
    (if rolloverEnabled = true then bpsDenominator else 0) 0 allowDeficit startAt expiresAt

def allocateWithDeficit (owner : Address) (id : String) (limit : ℤ) (period : Period)
    (rolloverEnabled allowDeficit : Bool) (expiresAt : ℕ) : Result State :=
  allocateAt env s owner id limit period rolloverEnabled allowDeficit env.timestamp.toNat expiresAt

def allocate (owner : Address) (id : String) (limit : ℤ) (period : Period)
    (rolloverEnabled : Bool) (expiresAt : ℕ) : Result State :=
  allocateWithDeficit env s owner id limit period rolloverEnabled false expiresAt

def allocateScheduled (owner : Address) (id : String) (limit : ℤ) (period : Period)
    (rolloverEnabled : Bool) (startAt expiresAt : ℕ) : Result State :=
  allocateAt env s owner id limit period rolloverEnabled false startAt expiresAt

def allocateWithRollover (owner : Address) (id : String) (limit : ℤ) (period : Period)
    (rolloverEnabled : Bool) (rolloverBps maxRolloverCap : ℤ) (expiresAt : ℕ) :
    Result State := do
  requireValidLimit maxRolloverCap
  requireRolloverBps rolloverBps
  allocateInternal env s owner id limit period rolloverEnabled rolloverBps maxRolloverCap false
    env.timestamp.toNat expiresAt

/-! ## Configuration -/

/-- A new policy keeps no more credit than it allows. -/
def clampCredit (b : Budget) : Result Budget :=
  if b.rolloverEnabled = false then
    pure { b with rolloverCredit := 0 }
  else if 0 < b.rolloverCredit then do
    let cap ← b.effectiveRolloverCap
    pure { b with rolloverCredit := applyCap b.rolloverCredit cap }
  else
    pure b

/-- `set_recurrence`.  What the old policy owes is settled first, and the window starts
again, unless the budget has not started. -/
def setRecurrence (caller : Address) (id : String) (period : Period) (periodSeconds : ℕ)
    (rolloverEnabled : Bool) (rolloverCap rolloverMaxBps : ℤ) : Result State := do
  requireValidLimit rolloverCap
  requireValidLimit rolloverMaxBps
  require (rolloverMaxBps < bpsDenominator) .invalidInput
  require (¬ (period = .custom ∧ periodSeconds = 0)) .invalidInput
  let b ← requireOwner env s id caller
  requireActive b
  let now := env.timestamp.toNat
  let scheduledForFuture := decide (now < b.windowStart)
  let b ←
    if scheduledForFuture = true then do
      b.requireNotExpired now
      pure b
    else
      b.windowTransition now
  let b ← clampCredit { b with
    period := period
    periodSeconds := if period = .custom then periodSeconds else 0
    rolloverEnabled := rolloverEnabled
    rolloverCap := rolloverCap
    rolloverMaxBps := rolloverMaxBps
    rolloverBps :=
      if rolloverEnabled = true ∧ b.rolloverBps = 0 then bpsDenominator
      else if rolloverEnabled = false then 0
      else b.rolloverBps }
  pure (s.store id (if scheduledForFuture = true then b else { b with windowStart := now }))

def setRolloverConfig (caller : Address) (id : String) (rolloverEnabled : Bool)
    (rolloverBps maxRolloverCap : ℤ) : Result State := do
  requireValidLimit maxRolloverCap
  requireRolloverBps rolloverBps
  let b ← requireOwner env s id caller
  requireActive b
  b.requireNotExpired env.timestamp.toNat
  let b ← b.windowTransition env.timestamp.toNat
  let b ← clampCredit { b with
    rolloverEnabled := rolloverEnabled
    rolloverBps := rolloverBps
    rolloverCap := maxRolloverCap }
  pure (s.store id b)

/-- `reset`; a budget that has not started is reported as expired. -/
def reset (caller : Address) (id : String) : Result State := do
  let b ← requireOwner env s id caller
  requireNotArchived b
  ofSpend (requireStarted env b)
  b.requireNotExpired env.timestamp.toNat
  pure (s.store id
    { b with spent := 0, rolloverCredit := 0, windowStart := env.timestamp.toNat })

def rollover (caller : Address) (id : String) : Result State := do
  let b ← requireOwner env s id caller
  requireNotArchived b
  let b ← b.windowTransition env.timestamp.toNat
  pure (s.store id b)

def setLimit (caller : Address) (id : String) (newLimit : ℤ) : Result State := do
  requireValidLimit newLimit
  let b ← requireOwner env s id caller
  requireNotArchived b
  let b ← b.windowTransition env.timestamp.toNat
  require (b.spent ≤ newLimit) .invalidInput
  pure (s.store id { b with limit := newLimit })

def freeze (caller : Address) (id : String) : Result State := do
  let b ← requireOwner env s id caller
  requireNotArchived b
  pure (s.store id { b with state := .frozen })

def unfreeze (caller : Address) (id : String) : Result State := do
  let b ← requireOwner env s id caller
  require (b.state = .frozen) .invalidState
  pure (s.store id { b with state := .active })

def archive (caller : Address) (id : String) : Result State := do
  let b ← requireOwner env s id caller
  pure (s.store id { b with state := .archived })

/-- `transfer_allocation`; neither budget is settled first. -/
def transferAllocation (caller : Address) (srcId dstId : String) (amount : ℤ) :
    Result State := do
  requirePositiveAmount amount
  require (srcId ≠ dstId) .invalidInput
  let src ← requireOwner env s srcId caller
  let dst ← s.load dstId
  require (dst.owner = caller) .unauthorized
  requireActive src
  requireActive dst
  src.requireNotExpired env.timestamp.toNat
  dst.requireNotExpired env.timestamp.toNat
  let available ← checkedSub src.limit src.spent
  require (amount ≤ available) .budgetExceeded
  let srcLimit ← checkedSub src.limit amount
  let dstLimit ← checkedAdd dst.limit amount
  pure ((s.store srcId { src with limit := srcLimit }).store dstId { dst with limit := dstLimit })

/-! ## Asset limits -/

/-- A fresh limit for a token, for both entrypoints that set one. -/
def registerAsset (caller : Address) (id : String) (token : Address) (limit : ℤ)
    (windowSeconds : ℕ) (rolloverEnabled : Bool) (rolloverBps maxRolloverCap : ℤ) :
    Result State := do
  let b ← requireOwner env s id caller
  requireActive b
  b.requireNotExpired env.timestamp.toNat
  pure (s.storeAsset id token
    { limit := limit
      spent := 0
      windowSeconds := windowSeconds
      windowStart := max b.windowStart env.timestamp.toNat
      rolloverEnabled := rolloverEnabled
      rolloverCredit := 0
      rolloverBps := rolloverBps
      maxRolloverCap := maxRolloverCap })

def setBudgetLimit (caller : Address) (id : String) (token : Address) (limit : ℤ)
    (windowSeconds : ℕ) : Result State := do
  requireValidLimit limit
  registerAsset env s caller id token limit windowSeconds false 0 0

def setBudgetLimitWithRollover (caller : Address) (id : String) (token : Address) (limit : ℤ)
    (windowSeconds : ℕ) (rolloverEnabled : Bool) (rolloverBps maxRolloverCap : ℤ) :
    Result State := do
  requireValidLimit limit
  requireValidLimit maxRolloverCap
  requireRolloverBps rolloverBps
  registerAsset env s caller id token limit windowSeconds rolloverEnabled rolloverBps maxRolloverCap

def setAssetRolloverConfig (caller : Address) (id : String) (token : Address)
    (rolloverEnabled : Bool) (rolloverBps maxRolloverCap : ℤ) : Result State := do
  requireValidLimit maxRolloverCap
  requireRolloverBps rolloverBps
  let b ← requireOwner env s id caller
  requireActive b
  b.requireNotExpired env.timestamp.toNat
  let asset ← s.loadAsset id token
  let asset := asset.windowTransition env.timestamp.toNat
  pure (s.storeAsset id token
    { asset with
      rolloverEnabled := rolloverEnabled
      rolloverBps := rolloverBps
      maxRolloverCap := maxRolloverCap
      rolloverCredit :=
        if rolloverEnabled = false then 0
        else if 0 < maxRolloverCap ∧ maxRolloverCap < asset.rolloverCredit then maxRolloverCap
        else asset.rolloverCredit })

/-- What may be spent of a token in its window. -/
def AssetBudget.capacity (b : AssetBudget) : Result ℤ :=
  if b.rolloverEnabled = true then checkedAdd b.limit b.rolloverCredit else .ok b.limit

/-- What every spend of a budget checks first. -/
def requireSpendable (caller : Address) (id : String) : SpendResult Budget := do
  let b ← intoSpend (requireOwner env s id caller)
  intoSpend (requireActive b)
  requireStarted env b
  intoSpend (b.requireNotExpired env.timestamp.toNat)
  pure b

def checkAndRecordSpend (caller : Address) (id : String) (token : Address) (amount : ℤ) :
    SpendResult State := do
  intoSpend (requirePositiveAmount amount)
  let _ ← requireSpendable env s caller id
  let asset ← intoSpend (s.loadAsset id token)
  let asset := asset.windowTransition env.timestamp.toNat
  let capacity ← intoSpend asset.capacity
  let newSpent ← intoSpend (checkedAdd asset.spent amount)
  requireSpend (newSpent ≤ capacity) .budgetExceeded
  pure (s.storeAsset id token { asset with spent := newSpent })

/-- The first pass of a batch: each leg is checked against its own limit.  `seen` are the
tokens of the legs before. -/
def settleLegs (id : String) (seen : List Address) : List AssetSpend →
    SpendResult (List (Address × AssetBudget))
  | [] => .ok []
  | spend :: rest => do
      intoSpend (requirePositiveAmount spend.amount)
      requireSpend (spend.token ∉ seen) .invalidInput
      let asset ← intoSpend (s.loadAsset id spend.token)
      let asset := asset.windowTransition env.timestamp.toNat
      let newSpent ← intoSpend (checkedAdd asset.spent spend.amount)
      requireSpend (newSpent ≤ asset.limit) .budgetExceeded
      let later ← settleLegs id (seen ++ [spend.token]) rest
      pure ((spend.token, { asset with spent := newSpent }) :: later)

/-- `check_and_record_batch_spend`.  The second pass writes every leg, over what the first
one settled. -/
def checkAndRecordBatchSpend (caller : Address) (id : String) (spends : List AssetSpend) :
    SpendResult State := do
  requireSpend (spends ≠ [] ∧ spends.length ≤ maxBatchTokens) .invalidInput
  let _ ← requireSpendable env s caller id
  let settled ← settleLegs env s id [] spends
  pure (settled.foldl (fun s leg => s.storeAsset id leg.1 leg.2) s)

/-- `get_asset_budget`, which stores a transition that is due. -/
def getAssetBudget (id : String) (token : Address) : Result (AssetBudget × State) := do
  let asset ← s.loadAsset id token
  let settled := asset.windowTransition env.timestamp.toNat
  pure (settled, s.storeAsset id token settled)

def assetRemaining (id : String) (token : Address) : Result (ℤ × State) := do
  let (asset, s) ← getAssetBudget env s id token
  let b ← s.load id
  if env.timestamp.toNat < b.windowStart then
    pure (0, s)
  else do
    let capacity ← asset.capacity
    let remaining ← checkedSub capacity asset.spent
    pure (remaining, s)

/-- `rollover_preview`. -/
def rolloverPreview (id : String) : Result RolloverOutcome := do
  let b ← s.load id
  b.requireNotExpired env.timestamp.toNat
  b.calculateRollover env.timestamp.toNat

/-! ## Spending -/

/-- `consume`.  Without a deficit to repay, a budget that allows one is overspent freely. -/
def consume (caller : Address) (id : String) (amount : ℤ) : SpendResult (ℤ × State) := do
  intoSpend (requirePositiveAmount amount)
  let b ← intoSpend (requireOwner env s id caller)
  intoSpend (requireActive b)
  requireStarted env b
  let b ← intoSpend (b.windowTransition env.timestamp.toNat)
  let capacity ← intoSpend (checkedAdd b.limit b.rolloverCredit)
  let ceiling ←
    if b.allowDeficit = true ∧ 0 < b.deficitAmount then
      intoSpend (checkedSub capacity b.deficitAmount)
    else
      pure capacity
  let newSpent ← intoSpend (checkedAdd b.spent amount)
  if ceiling < newSpent then
    if b.allowDeficit = true ∧ b.deficitAmount = 0 then do
      let remaining ← intoSpend (checkedSub capacity newSpent)
      pure (remaining, s.store id { b with spent := newSpent })
    else do
      let _ ← intoSpend (checkedSub ceiling b.spent)
      .error (.budget .budgetExceeded)
  else do
    let remaining ← intoSpend (checkedSub ceiling newSpent)
    pure (remaining, s.store id { b with spent := newSpent })

def release (caller : Address) (id : String) (amount : ℤ) : Result (ℤ × State) := do
  requirePositiveAmount amount
  let b ← requireOwner env s id caller
  requireActive b
  let b ← b.windowTransition env.timestamp.toNat
  require (amount ≤ b.spent) .invalidAmount
  let spent ← checkedSub b.spent amount
  let remaining ← Budget.effectiveRemaining { b with spent := spent }
  pure (remaining, s.store id { b with spent := spent })

/-- `remaining`, which stores the transition; nothing remains of a budget whose transition
fails. -/
def remaining (id : String) : Result (ℤ × State) := do
  let b ← s.load id
  if env.timestamp.toNat < b.windowStart then
    pure (0, s)
  else
    match b.windowTransition env.timestamp.toNat with
    | .ok settled => do
        let remaining ← settled.effectiveRemaining
        pure (remaining, s.store id settled)
    | .error _ => pure (0, s)

end BudgetContract
end Astroid
