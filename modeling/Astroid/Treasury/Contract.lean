import Astroid.Treasury.Record

/-!
# The treasury contract

`treasury/src/lib.rs`, entrypoint by entrypoint.  Storage is one field for each
key of `DataKey`; a flag or counter that is absent reads as its default.  Two
more fields record what the contract did and are read by no entrypoint: how much
of each asset was ever credited, and the token transfers out of custody.
-/

namespace Astroid
namespace TreasuryContract

/-- The tokens, and the three contracts the treasury is wired to.  The registry
answers a lookup; the policy and the budget see the invocation and may write
their own storage, and the call traps when they refuse. -/
structure TreasuryHost (World : Type) extends TokenHost World where
  lookup : World → Address → String → ModuleKind → Option Address
  checkTransfer : Env self → World → Address → String → Address → Address → ℤ → Option World
  consume : Env self → World → Address → Address → String → ℤ → Option World

/-- A token transfer out of custody. -/
structure Outflow where
  asset : Address
  recipient : Address
  amount : ℤ
  deriving DecidableEq

structure State (World : Type) where
  world : World
  treasury : Option Treasury
  holding : Address → Option Holding
  approvedAsset : Address → Bool
  approvedAssetCount : ℕ
  approvedAssetList : List Address
  assetBalance : Address → Option ℤ
  reentrancyLock : Bool
  frozen : Bool
  milestone : ℕ → Option MilestoneDisbursement
  milestoneCount : ℕ
  allowance : AllowanceId → Option Allowance
  withdrawalTimeLock : Option WithdrawalTimeLock
  pendingWithdrawal : ℕ → Option PendingWithdrawal
  pendingWithdrawalCount : ℕ
  credited : Address → ℤ
  outflows : List Outflow

/-! ## Storage -/

namespace State

variable {World : Type} (s : State World)

/-- `load`. -/
def load : Result Treasury := okOr s.treasury .notInitialized

/-- `store`. -/
def store (t : Treasury) : State World := { s with treasury := some t }

/-- `load_holding`. -/
def loadHolding (asset : Address) : Holding := (s.holding asset).getD ⟨asset, 0, 0, none⟩

/-- `store_holding`. -/
def storeHolding (asset : Address) (h : Holding) : State World :=
  { s with holding := Function.update s.holding asset (some h) }

/-- `store_asset_balance`. -/
def storeAssetBalance (asset : Address) (balance : ℤ) : State World :=
  { s with assetBalance := Function.update s.assetBalance asset (some balance) }

def storeAllowance (id : AllowanceId) (al : Allowance) : State World :=
  { s with allowance := Function.update s.allowance id (some al) }

def storeMilestone (id : ℕ) (d : MilestoneDisbursement) : State World :=
  { s with milestone := Function.update s.milestone id (some d) }

def storePending (id : ℕ) (p : PendingWithdrawal) : State World :=
  { s with pendingWithdrawal := Function.update s.pendingWithdrawal id (some p) }

/-- `load_time_lock`. -/
def loadTimeLock : WithdrawalTimeLock := s.withdrawalTimeLock.getD .disabled

/-- `lock`. -/
def lock : Result (State World) := do
  require (s.reentrancyLock = false) .invalidState
  pure { s with reentrancyLock := true }

/-- `unlock`. -/
def unlock : State World := { s with reentrancyLock := false }

/-- `check_frozen`. -/
def checkFrozen : Result Unit := require (s.frozen = false) .invalidState

/-- `require_approved_asset`. -/
def requireApprovedAsset (asset : Address) : Result Unit :=
  require (s.approvedAsset asset = true) .assetNotAuthorized

/-- `require_not_time_locked`. -/
def requireNotTimeLocked (amount : ℤ) : Result Unit :=
  require (¬ s.loadTimeLock.Applies amount) .timelockNotExpired

/-- `require_time_lock_applies`. -/
def requireTimeLockApplies (amount : ℤ) : Result Unit :=
  require (s.loadTimeLock.Applies amount) .invalidInput

end State

variable {World : Type} (H : TreasuryHost World) (env : Env H.self) (s : State World)

/-! ## Roles and gates -/

/-- `require_admin`. -/
def requireAdmin (caller : Address) : Result Treasury := do
  let t ← s.load
  require (t.admin = caller) .unauthorized
  requireAuth env caller
  pure t

/-- `require_multisig`. -/
def requireMultisig (caller : Address) : Result Treasury := do
  let t ← s.load
  require (t.multisig = some caller) .unauthorized
  requireAuth env caller
  pure t

/-- `require_guardian`. -/
def requireGuardian (caller : Address) : Result Treasury := do
  let t ← s.load
  require (t.guardian = caller ∨ t.multisig = some caller) .unauthorized
  requireAuth env caller
  pure t

/-- `require_not_paused`. -/
def requireNotPaused : Result Unit := do
  let t ← s.load
  require (¬ t.PauseIsActive env.timestamp) .treasuryPaused

/-- `require_active`. -/
def requireActive (t : Treasury) : Result Unit := require (t.state = .active) .invalidState

/-- `require_verified_caller`: an account passes, and so does everybody while no
registry is wired. -/
def requireVerifiedCaller (t : Treasury) (caller : Address) (kind : ModuleKind) : Result Unit :=
  match caller with
  | .account _ => .ok ()
  | .contract _ =>
      match t.registry with
      | none => .ok ()
      | some registry =>
          require (H.lookup s.world registry t.org kind = some caller) .unauthorized

/-! ## Moving value -/

/-- `PolicyClient::check_transfer`, when a policy is wired. -/
def checkPolicy (w : World) (t : Treasury) (asset payee : Address) (amount : ℤ) : Result World :=
  match t.policy with
  | some policy => Outcome.orFail (H.checkTransfer env w policy "active" asset payee amount) .trap
  | none => .ok w

/-- The policy loop of `settle_batch`. -/
def checkPolicies (w : World) (t : Treasury) (asset : Address) : List Payment → Result World
  | [] => .ok w
  | payment :: rest => do
      let w ← checkPolicy H env w t asset payment.recipient payment.amount
      checkPolicies w t asset rest

/-- `BudgetClient::consume`, when the treasury has a budget and the holding an
envelope. -/
def consumeBudget (w : World) (t : Treasury) (h : Holding) (caller : Address) (amount : ℤ) :
    Result World :=
  match t.budget, h.budgetId with
  | some budget, some budgetId =>
      Outcome.orFail (H.consume env w budget caller budgetId amount) .trap
  | _, _ => .ok w

/-- The allowance step of `settle_withdrawal`, which only a recorded allowance
restricts. -/
def consumeAllowance (id : AllowanceId) (amount : ℤ) : Result (State World) :=
  match s.allowance id with
  | none => .ok s
  | some al => do
      require (¬ (al.expiresAt ≠ 0 ∧ al.expiresAt ≤ env.timestamp)) .allowanceExpired
      let remaining ← checkedSub al.limit al.spent
      require (amount ≤ remaining) .allowanceExceeded
      let spent ← checkedAdd al.spent amount
      pure (s.storeAllowance id { al with spent })

/-- The ledger debit every outflow makes: the holding and the recorded balance. -/
def debit (asset : Address) (h : Holding) (amount : ℤ) : Result (State World) := do
  let totalIn ← checkedSub h.totalIn amount
  let totalOut ← checkedAdd h.totalOut amount
  pure ((s.storeHolding asset { h with totalIn, totalOut }).storeAssetBalance asset totalIn)

/-- The transfer loop of a payout. -/
def sendPayments (asset : Address) (w : World) : List Payment → Result World
  | [] => .ok w
  | payment :: rest => do
      let w ← H.transferOrTrap w asset H.self payment.recipient payment.amount
      sendPayments asset w rest

/-- The measured payout `transfer_out` and `settle_batch` make: custody covers
`total`, and falls by exactly `total`. -/
def payOut (asset : Address) (total : ℤ) (payments : List Payment) : Result (State World) := do
  let before ← H.custodyOrTrap s.world asset
  require (total ≤ before) .insufficientFunds
  let w ← sendPayments H asset s.world payments
  let after ← H.custodyOrTrap w asset
  let paid ← checkedSub before after
  require (paid = total) .invalidState
  pure { s with
    world := w
    outflows := s.outflows ++ payments.map fun p => ⟨asset, p.recipient, p.amount⟩ }

/-- `transfer_out`. -/
def transferOut (asset payee : Address) (amount : ℤ) : Result (State World) :=
  payOut H s asset amount [⟨payee, amount⟩]

/-- `settle_withdrawal`. -/
def settleWithdrawal (t : Treasury) (caller asset payee : Address) (amount : ℤ) :
    Result (State World) := do
  let s ← s.lock
  let w ← checkPolicy H env s.world t asset payee amount
  let h := s.loadHolding asset
  let w ← consumeBudget H env w t h caller amount
  let s ← consumeAllowance H env { s with world := w } ⟨caller, payee, asset⟩ amount
  require (amount ≤ h.totalIn) .insufficientFunds
  let s ← debit s asset h amount
  let s ← transferOut H s asset payee amount
  pure s.unlock

/-- The checked sum of the legs. -/
def sumPayments (total : ℤ) : List Payment → Result ℤ
  | [] => .ok total
  | payment :: rest => do
      let total ← checkedAdd total payment.amount
      sumPayments total rest

/-- The checked sum of the legs, each of which must be positive. -/
def sumPositivePayments (total : ℤ) : List Payment → Result ℤ
  | [] => .ok total
  | payment :: rest => do
      requirePositiveAmount payment.amount
      let total ← checkedAdd total payment.amount
      sumPositivePayments total rest

/-- `settle_batch`. -/
def settleBatch (t : Treasury) (caller asset : Address) (payments : List Payment) :
    Result (State World) := do
  let total ← sumPayments 0 payments
  let s ← s.lock
  let w ← checkPolicies H env s.world t asset payments
  let h := s.loadHolding asset
  let w ← consumeBudget H env w t h caller total
  let s ← debit { s with world := w } asset h total
  let s ← payOut H s asset total payments
  pure s.unlock

/-! ## Configuration -/

def initializeContract (org : String) (admin : Address) : Result (State World) := do
  require (s.treasury = none) .alreadyInitialized
  requireAuth env admin
  requireNonEmpty org
  pure (s.store {
    org, admin
    multisig := none
    policy := none
    budget := none
    registry := none
    state := .active
    guardian := admin
    paused := false
    pausedAt := 0 })

/-- The configuration setters write one field of the record, for the admin. -/
def configure (caller : Address) (update : Treasury → Treasury) : Result (State World) := do
  let t ← requireAdmin H env s caller
  pure (s.store (update t))

def setRegistry (caller : Address) (registry : Option Address) : Result (State World) :=
  configure H env s caller fun t => { t with registry }

def setPolicy (caller policy : Address) : Result (State World) :=
  configure H env s caller fun t => { t with policy := some policy }

def setBudget (caller budget : Address) : Result (State World) :=
  configure H env s caller fun t => { t with budget := some budget }

def setMultisig (caller multisig : Address) : Result (State World) :=
  configure H env s caller fun t => { t with multisig := some multisig }

def setGuardian (caller guardian : Address) : Result (State World) :=
  configure H env s caller fun t => { t with guardian }

/-- The counter is kept in a `u32`. -/
def addApprovedAsset (caller asset : Address) : Result (State World) := do
  let _ ← requireAdmin H env s caller
  require (s.approvedAsset asset = false) .alreadyExists
  require (s.approvedAssetList.length < maxTreasuryAssets) .invalidInput
  pure { s with
    approvedAssetList := s.approvedAssetList ++ [asset]
    approvedAsset := Function.update s.approvedAsset asset true
    approvedAssetCount := (s.approvedAssetCount + 1) % 2 ^ 32 }

def removeApprovedAsset (caller asset : Address) : Result (State World) := do
  let _ ← requireAdmin H env s caller
  require (s.approvedAsset asset = true) .notFound
  pure { s with
    approvedAsset := Function.update s.approvedAsset asset false
    approvedAssetList := s.approvedAssetList.erase asset
    approvedAssetCount := s.approvedAssetCount - 1 }

def freeze (caller : Address) : Result (State World) := do
  let _ ← requireMultisig H env s caller
  pure { s with frozen := true }

def unfreeze (caller : Address) : Result (State World) := do
  let _ ← requireMultisig H env s caller
  require (s.frozen = true) .invalidState
  pure { s with frozen := false }

def pause (caller : Address) : Result (State World) := do
  let t ← requireGuardian H env s caller
  require (¬ t.PauseIsActive env.timestamp) .invalidState
  pure (s.store { t with paused := true, pausedAt := env.timestamp })

def unpause (caller : Address) : Result (State World) := do
  let t ← requireGuardian H env s caller
  require (t.paused = true) .invalidState
  pure (s.store { t with paused := false, pausedAt := 0 })

def allocateBudget (admin asset : Address) (budgetId : String) : Result (State World) := do
  let _ ← requireAdmin H env s admin
  requireNonEmpty budgetId
  s.requireApprovedAsset asset
  pure (s.storeHolding asset { s.loadHolding asset with budgetId := some budgetId })

def setAllowance (admin agent recipient asset : Address) (limit : ℤ) (expiresAt : UInt64) :
    Result (State World) := do
  let _ ← requireAdmin H env s admin
  requirePositiveAmount limit
  require (agent ≠ recipient) .invalidInput
  pure (s.storeAllowance ⟨agent, recipient, asset⟩ ⟨agent, recipient, asset, limit, 0, expiresAt⟩)

def removeAllowance (admin agent recipient asset : Address) : Result (State World) := do
  let _ ← requireAdmin H env s admin
  require (s.allowance ⟨agent, recipient, asset⟩ ≠ none) .notFound
  pure { s with allowance := Function.update s.allowance ⟨agent, recipient, asset⟩ none }

/-- Disabling normalises the threshold to zero. -/
def setWithdrawalTimeLock (caller : Address) (delay : UInt64) (threshold : ℤ) :
    Result (State World) := do
  let _ ← requireAdmin H env s caller
  if delay = 0 then
    pure { s with withdrawalTimeLock := some .disabled }
  else do
    require (minTimelockDelay ≤ delay.toNat ∧ delay.toNat ≤ maxTimelockDelay) .invalidInput
    requirePositiveAmount threshold
    pure { s with withdrawalTimeLock := some ⟨delay, threshold⟩ }

/-! ## Deposits -/

/-- The deposit is credited with what custody gained. -/
def deposit (src asset : Address) (amount : ℤ) : Result (State World) := do
  requirePositiveAmount amount
  requireAuth env src
  let t ← s.load
  requireActive t
  s.requireApprovedAsset asset
  requireVerifiedCaller H s t src .wallet
  let s ← s.lock
  let before ← H.custodyOrTrap s.world asset
  let w ← H.transferOrTrap s.world asset src H.self amount
  let after ← H.custodyOrTrap w asset
  let received ← checkedSub after before
  require (0 < received) .invalidAmount
  require (received ≤ amount) .invalidState
  let h := s.loadHolding asset
  let totalIn ← checkedAdd h.totalIn received
  let s := { s with
    world := w
    credited := Function.update s.credited asset (s.credited asset + received) }
  pure ((s.storeHolding asset { h with totalIn }).storeAssetBalance asset totalIn).unlock

/-! ## Withdrawals -/

def withdraw (caller asset payee : Address) (amount : ℤ) : Result (State World) := do
  requirePositiveAmount amount
  requireNotPaused H env s
  s.checkFrozen
  let t ← requireAdmin H env s caller
  requireActive t
  s.requireApprovedAsset asset
  requireVerifiedCaller H s t caller .multisig
  s.requireNotTimeLocked amount
  settleWithdrawal H env s t caller asset payee amount

/-- The bounds every batch must be within. -/
def requireBatchSize (payments : List Payment) : Result Unit :=
  require (payments ≠ [] ∧ payments.length ≤ maxBatchPayments) .invalidInput

def batchTransfer (caller asset : Address) (payments : List Payment) : Result (State World) := do
  requireBatchSize payments
  requireNotPaused H env s
  s.checkFrozen
  let t ← requireAdmin H env s caller
  requireActive t
  let total ← sumPositivePayments 0 payments
  require (total ≤ (s.loadHolding asset).totalIn) .insufficientFunds
  requireVerifiedCaller H s t caller .multisig
  s.requireNotTimeLocked total
  settleBatch H env s t caller asset payments

/-! ## The cooling-off period -/

/-- `open_pending`. -/
def openPending (requester asset payee : Address) (amount : ℤ) (payments : List Payment) :
    Result (ℕ × State World) := do
  let executeAfter ← checkedAddU64 env.timestamp s.loadTimeLock.delay
  let expiresAt ← checkedAddU64 executeAfter (UInt64.ofNat governanceGracePeriod)
  let id := s.pendingWithdrawalCount + 1
  require (id < 2 ^ 64) .overflow
  let pending : PendingWithdrawal := {
    id, requester, asset, payee, amount, payments
    requestedAt := env.timestamp
    executeAfter, expiresAt
    cancelled := false
    executed := false }
  pure (id, { s.storePending id pending with pendingWithdrawalCount := id })

def queueWithdrawal (caller asset payee : Address) (amount : ℤ) : Result (ℕ × State World) := do
  requirePositiveAmount amount
  requireNotPaused H env s
  s.checkFrozen
  let t ← requireAdmin H env s caller
  requireActive t
  s.requireApprovedAsset asset
  requireVerifiedCaller H s t caller .multisig
  s.requireTimeLockApplies amount
  openPending H env s caller asset payee amount []

/-- The stored scalar recipient of a batch is that of its first leg. -/
def queueBatchTransfer (caller asset : Address) (payments : List Payment) :
    Result (ℕ × State World) := do
  requireBatchSize payments
  requireNotPaused H env s
  s.checkFrozen
  let t ← requireAdmin H env s caller
  requireActive t
  let total ← sumPositivePayments 0 payments
  requireVerifiedCaller H s t caller .multisig
  s.requireTimeLockApplies total
  let first ← Outcome.orFail payments.head? .trap
  openPending H env s caller asset first.recipient total payments

def executeWithdrawal (caller : Address) (id : ℕ) : Result (State World) := do
  requireNotPaused H env s
  s.checkFrozen
  let t ← requireAdmin H env s caller
  requireActive t
  let p ← okOr (s.pendingWithdrawal id) .notFound
  require p.IsPending .invalidState
  require (env.timestamp < p.expiresAt) .proposalExpired
  requireTimeReached env p.executeAfter
  s.requireApprovedAsset p.asset
  requireVerifiedCaller H s t caller .multisig
  let s := s.storePending id { p with executed := true }
  if p.payments = [] then
    settleWithdrawal H env s t caller p.asset p.payee p.amount
  else
    settleBatch H env s t caller p.asset p.payments

def cancelWithdrawal (caller : Address) (id : ℕ) : Result (State World) := do
  let _ ← requireAdmin H env s caller
  let p ← okOr (s.pendingWithdrawal id) .notFound
  require p.IsPending .invalidState
  pure (s.storePending id { p with cancelled := true })

/-! ## Milestones -/

def initMilestoneDisbursement (caller asset payee : Address) (totalAmount : ℤ)
    (milestones : ℕ) : Result (ℕ × State World) := do
  let _ ← requireAdmin H env s caller
  requirePositiveAmount totalAmount
  s.requireApprovedAsset asset
  require (milestones ≠ 0) .invalidInput
  let amountPerMilestone ← checkedDiv totalAmount milestones
  require (amountPerMilestone ≠ 0) .invalidAmount
  let count := s.milestoneCount + 1
  require (count < 2 ^ 64) .overflow
  pure (count, { s.storeMilestone count
      { totalAmount, milestones, disbursed := 0, amountPerMilestone, asset, payee } with
    milestoneCount := count })

/-- What the next release of a schedule pays: the last one absorbs the rounding
remainder. -/
def MilestoneDisbursement.due (d : MilestoneDisbursement) : Result ℤ :=
  let last := d.milestones - 1
  if d.disbursed = last then do
    let disbursedSoFar ← checkedMul d.amountPerMilestone last
    checkedSub d.totalAmount disbursedSoFar
  else
    .ok d.amountPerMilestone

def releaseNextMilestone (caller : Address) (milestoneId : ℕ) : Result (State World) := do
  requireNotPaused H env s
  let t ← requireAdmin H env s caller
  requireVerifiedCaller H s t caller .multisig
  let s ← s.lock
  let d ← okOr (s.milestone milestoneId) .notFound
  require (d.disbursed < d.milestones) .invalidState
  s.requireApprovedAsset d.asset
  let amount ← d.due
  let s := s.storeMilestone milestoneId { d with disbursed := d.disbursed + 1 }
  let h := s.loadHolding d.asset
  let w ← consumeBudget H env s.world t h caller amount
  require (amount ≤ h.totalIn) .insufficientFunds
  let s ← debit { s with world := w } d.asset h amount
  let s ← transferOut H s d.asset d.payee amount
  pure s.unlock

end TreasuryContract
end Astroid
