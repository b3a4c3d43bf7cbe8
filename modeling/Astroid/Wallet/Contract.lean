import Astroid.Wallet.Record
import Astroid.Lib.Retained

/-!
# The wallet contract

`wallet/src/lib.rs`, entrypoint by entrypoint.  Storage is one field for each
key of `DataKey` and `AccessKey`.

The three entrypoints that take the reentrancy lock release it by hand on every
error, so they are written as computations whose writes survive a failure
(`Act`); the host then rolls a failed invocation back.  The others write nothing
before they return.
-/

namespace Astroid
namespace WalletContract

/-- The tokens, the three modules the wallet consults, and any other contract it may
call as itself.  A callee that fails leaves no trace. -/
structure WalletHost (World : Type) extends TokenHost World where
  getModulesBatch : World → Address → String → List ModuleKind →
    Except (Option Error) (List (Option ModuleInfo))
  checkTransfer : Env self → World → Address → String → Address → Address → ℤ → Option World
  consume : Env self → World → Address → Address → String → ℤ →
    Except (Option BudgetError) (World × ℤ)
  invoke : Env self → World → ContractCall → Except (Option Error) World

structure State (World : Type) where
  world : World
  admin : Option Address
  guardian : Option Address
  paused : Bool
  walletCount : Option ℕ
  budget : Option Address
  wallet : ℕ → Option WalletData
  balance : ℕ → Address → Option ℤ
  policy : Option Address
  policyBypass : ℕ → Bool
  velocityLimit : ℕ → Address → Option VelocityLimit
  velocityUsage : ℕ → Address → Option VelocityUsage
  rateLimit : ℕ → Option RateLimitConfig
  rateLimitUsage : ℕ → Option RateUsage
  registry : Option Address
  org : Option String
  reentrancyLock : Bool
  defaultBudgetId : Option String
  assetBudgetId : Address → Option String
  role : ℕ → Address → Option Role

/-! ## Storage -/

namespace State

variable {World : Type} (s : State World)

/-- Write one entry of a map keyed by wallet and address. -/
def update₂ {α : Type} (f : ℕ → Address → α) (id : ℕ) (a : Address) (x : α) : ℕ → Address → α :=
  Function.update f id (Function.update (f id) a x)

/-- `load_wallet`. -/
def loadWallet (id : ℕ) : Result WalletData := okOr (s.wallet id) .notFound

/-- `store_wallet`. -/
def storeWallet (id : ℕ) (data : WalletData) : State World :=
  { s with wallet := Function.update s.wallet id (some data) }

/-- `balance`. -/
def balanceOf (id : ℕ) (asset : Address) : ℤ := (s.balance id asset).getD 0

def storeBalance (id : ℕ) (asset : Address) (amount : ℤ) : State World :=
  { s with balance := update₂ s.balance id asset (some amount) }

/-- `credit`. -/
def credit (id : ℕ) (asset : Address) (amount : ℤ) : Result (State World) := do
  let updated ← checkedAdd (s.balanceOf id asset) amount
  pure (s.storeBalance id asset updated)

/-- `debit`. -/
def debit (id : ℕ) (asset : Address) (amount : ℤ) : Result (State World) := do
  require (amount ≤ s.balanceOf id asset) .insufficientFunds
  let updated ← checkedSub (s.balanceOf id asset) amount
  pure (s.storeBalance id asset updated)

/-- `lock`. -/
def lock : Result (State World) := do
  require (s.reentrancyLock = false) .invalidState
  pure { s with reentrancyLock := true }

/-- `unlock`. -/
def unlock : State World := { s with reentrancyLock := false }

/-- `when_not_paused`. -/
def whenNotPaused : Result Unit := require (s.paused = false) .walletPaused

/-- `access::effective_role`. -/
def effectiveRole (id : ℕ) (owner account : Address) : Option Role :=
  if owner = account then some .admin else s.role id account

/-- `access::require_role`. -/
def requireRole (id : ℕ) (owner caller : Address) (required : Role) : Result Unit :=
  match s.effectiveRole id owner caller with
  | some role => require (role.Satisfies required) .unauthorized
  | none => .error (.error .unauthorized)

end State

variable {World : Type} (H : WalletHost World) (env : Env H.self)

/-- A computation of the wallet. -/
abbrev WalletM (World : Type) := Act (State World) Fault

section Guards

variable (s : State World)

/-- `require_wallet_role`. -/
def requireWalletRole (id : ℕ) (caller : Address) (required : Role) : Result WalletData := do
  requireAuth env caller
  let wallet ← s.loadWallet id
  s.requireRole id wallet.owner caller required
  pure wallet

/-- `require_wallet_role_or_admin`. -/
def requireWalletRoleOrAdmin (id : ℕ) (caller : Address) (required : Role) :
    Result WalletData := do
  requireAuth env caller
  let wallet ← s.loadWallet id
  if s.admin = some caller then
    pure wallet
  else do
    s.requireRole id wallet.owner caller required
    pure wallet

/-- `require_admin`. -/
def requireAdmin (caller : Address) : Result Unit := do
  requireAuth env caller
  let admin ← okOr s.admin .notInitialized
  require (admin = caller) .unauthorized

/-- `require_guardian_or_admin`. -/
def requireGuardianOrAdmin (caller : Address) : Result Unit := do
  requireAuth env caller
  let admin ← okOr s.admin .notInitialized
  require (admin = caller ∨ s.guardian = some caller) .unauthorized

end Guards

/-- `require_active` and `require_active_for_transfer`, which report the same errors. -/
def requireActive (wallet : WalletData) : Result Unit :=
  match wallet.state with
  | .active => .ok ()
  | .frozen => .error (.error .walletFrozen)
  | .paused => .error (.error .walletPaused)
  | .archived => .error (.error .walletArchived)

def requireNotArchived (wallet : WalletData) : Result Unit :=
  require (wallet.state ≠ .archived) .walletArchived

/-- `validate_transfer_recipient`; the all-zero key is account 0. -/
def validateTransferRecipient (recipient : Address) : Result Unit := do
  require (recipient ≠ .account 0) .invalidInput
  require (recipient ≠ H.self) .invalidInput

/-! ## The velocity gate -/

/-- The per-invocation cache: asset, ceiling and live usage, in first-touch order. -/
abbrev VelocityEntries := List (Address × Option VelocityLimit × Option VelocityUsage)

/-- `VelocityGate::position`, with the entry it loads on first touch. -/
def velocityPosition (s : State World) (walletId : ℕ) (asset : Address)
    (entries : VelocityEntries) : Result (ℕ × VelocityEntries) :=
  match entries.findIdx? (·.1 = asset) with
  | some index => .ok (index, entries)
  | none =>
      match s.velocityLimit walletId asset with
      | none => .ok (entries.length, entries ++ [(asset, none, none)])
      | some limit => do
          let usage ← rolledVelocityUsage (s.velocityUsage walletId asset) limit env.timestamp
          pure (entries.length, entries ++ [(asset, some limit, some usage)])

/-- `VelocityGate::enforce`. -/
def velocityEnforce (s : State World) (walletId : ℕ) (entries : VelocityEntries)
    (asset : Address) (amount : ℤ) : Result VelocityEntries := do
  let (index, entries) ← velocityPosition H env s walletId asset entries
  match entries[index]? with
  | some (_, some limit, some usage) => do
      let total ← velocityTotal usage
      require (IsI128 (total + amount) ∧ total + amount ≤ limit.maxAmount) .velocityLimitExceeded
      let current ← checkedAdd (usage.spent.getD 0 0) amount
      let usage := { usage with spent := usage.spent.set 0 current }
      pure (entries.set index (asset, some limit, some usage))
  | _ => .ok entries

/-- `VelocityGate::flush`. -/
def velocityFlush (s : State World) (walletId : ℕ) : VelocityEntries → State World
  | [] => s
  | (asset, some _, some usage) :: rest =>
      velocityFlush { s with
        velocityUsage := State.update₂ s.velocityUsage walletId asset (some usage) } walletId rest
  | _ :: rest => velocityFlush s walletId rest

/-- `enforce_velocity`: a gate for one movement. -/
def enforceVelocity (walletId : ℕ) (asset : Address) (amount : ℤ) (s : State World) :
    Result (State World) := do
  let entries ← velocityEnforce H env s walletId [] asset amount
  pure (velocityFlush s walletId entries)

/-- `enforce_rate_limit`. -/
def enforceRateLimit (walletId : ℕ) (amount : ℤ) (count : ℕ) (s : State World) :
    Result (State World) :=
  match s.rateLimit walletId with
  | none => .ok s
  | some config =>
      if config.windowSeconds = 0 then
        .ok s
      else do
        let usage ← rolledRateUsage (s.rateLimitUsage walletId) config env.timestamp
        let (totalVolume, totalCount) ← rateTotals usage
        let newCount ← checkedCount totalCount count
        require (¬ (config.maxCount ≠ 0 ∧ config.maxCount < newCount)) .rateLimitExceeded
        let newVolume ← checkedAdd totalVolume amount
        require (¬ (config.maxVolume ≠ 0 ∧ config.maxVolume < newVolume)) .rateLimitExceeded
        let bucketVolume ← checkedAdd (usage.volume.getD 0 0) amount
        let bucketCount ← checkedCount (usage.count.getD 0 0) count
        let usage := { usage with
          volume := usage.volume.set 0 bucketVolume
          count := usage.count.set 0 bucketCount }
        pure { s with rateLimitUsage := Function.update s.rateLimitUsage walletId (some usage) }

/-! ## The policy and budget gates -/

/-- `resolve_gates`: the policy and the budget, from the registry when one is wired
together with an organization. -/
def resolveGates (s : State World) : Result (Option Address × Option Address) :=
  match s.registry, s.org with
  | some registry, some org =>
      match H.getModulesBatch s.world registry org [.policy, .budget] with
      | .ok modules => do
          let policy ← Outcome.orFail modules[0]? .trap
          let budget ← Outcome.orFail modules[1]? .trap
          pure (policy.bind live, budget.bind live)
      | .error (some e) => .error (.error e)
      | .error none => .error (.error .invalidState)
  | _, _ => .ok (s.policy, s.budget)
where
  /-- A deprecated module is no module. -/
  live (info : ModuleInfo) : Option Address := if info.deprecated then none else some info.address

/-- `budget_id_for`. -/
def budgetIdFor (s : State World) (asset : Address) : Option String :=
  match s.assetBudgetId asset with
  | some id => some id
  | none => s.defaultBudgetId

/-- `require_policy_check`. -/
def requirePolicyCheck (policy : Address) (policyId : String) (asset recipient : Address)
    (amount : ℤ) (s : State World) : Result (State World) := do
  let w ← okOr (H.checkTransfer env s.world policy policyId asset recipient amount) .policyDenied
  pure { s with world := w }

/-- `try_consume`, with its failure mapped: what the budget has left. -/
def tryConsume (budget : Address) (budgetId : String) (caller : Address) (amount : ℤ)
    (s : State World) : Result (ℤ × State World) :=
  match H.consume env s.world budget caller budgetId amount with
  | .ok (w, remaining) => .ok (remaining, { s with world := w })
  | .error (some e) => .error (.error e.toError)
  | .error none => .error (.error .budgetExceeded)

/-- `consume_budget`. -/
def consumeBudget (budget : Address) (budgetId : String) (caller : Address) (amount : ℤ)
    (s : State World) : Result (State World) := do
  let (_, s) ← tryConsume H env budget budgetId caller amount s
  pure s

/-- The policy gate of a spend, which a bypassed wallet skips. -/
def policyGate (walletId : ℕ) (asset recipient : Address) (amount : ℤ) (policy : Option Address)
    (s : State World) : Result (State World) :=
  match policy with
  | some policy =>
      if s.policyBypass walletId = false then
        requirePolicyCheck H env policy "active" asset recipient amount s
      else
        .ok s
  | none => .ok s

/-- The budget gate of a spend: the envelope of the asset, or else the default one. -/
def budgetGate (asset caller : Address) (amount : ℤ) (budget : Option Address)
    (s : State World) : Result (State World) :=
  match budget, budgetIdFor s asset with
  | some budget, some budgetId => consumeBudget H env budget budgetId caller amount s
  | _, _ => .ok s

/-- `pre_execute_checks`. -/
def preExecuteChecks (walletId : ℕ) (asset recipient : Address) (amount : ℤ)
    (caller : Address) : WalletM World Unit := do
  let (policy, budget) ← Act.read (resolveGates H)
  Act.step (policyGate H env walletId asset recipient amount policy)
  Act.step (budgetGate H env asset caller amount budget)

/-- `require_custody_funds`: the tracked balance covers the amount, and so does custody. -/
def requireCustodyFunds (walletId : ℕ) (asset : Address) (amount : ℤ) (s : State World) :
    Result Unit := do
  requirePositiveAmount amount
  validateSufficientBalance (s.balanceOf walletId asset) amount
  let custody ← H.tokenBalance s.world asset H.self
  validateSufficientBalance custody amount

/-- `safe_transfer` out of custody. -/
def safeTransferOut (asset payee : Address) (amount : ℤ) (s : State World) :
    Result (State World) := do
  let w ← H.safeTransfer s.world asset H.self payee amount
  pure { s with world := w }

/-- `if let Err(e) = x { unlock; return Err(e) }`.  A trap ends the invocation before
anything is unlocked. -/
def unlockOnError {α : Type} (x : WalletM World α) : WalletM World α :=
  x.onError fun fault s => if fault = .trap then s else s.unlock

/-! ## Administration -/

section Administration

variable (s : State World)

def initializeContract (admin : Address) : Result (State World) := do
  require (s.admin = none) .alreadyInitialized
  pure { s with admin := some admin, guardian := some admin, walletCount := some 0, paused := false }

def setGuardian (caller guardian : Address) : Result (State World) := do
  requireAdmin H env s caller
  pure { s with guardian := some guardian }

def emergencyPause (caller : Address) : Result (State World) := do
  requireGuardianOrAdmin H env s caller
  require (s.paused = false) .invalidState
  pure { s with paused := true }

def emergencyUnpause (caller : Address) : Result (State World) := do
  requireAdmin H env s caller
  require (s.paused = true) .invalidState
  pure { s with paused := false }

/-- The counter is checked as an `i128` and kept as a `u64`. -/
def createWallet (owner : Address) : Result (ℕ × State World) := do
  s.whenNotPaused
  requireAuth env owner
  let count ← okOr s.walletCount .notInitialized
  let id := (count + 1) % 2 ^ 64
  pure (id, { s.storeWallet id ⟨owner, .active⟩ with walletCount := some id })

def setPolicy (caller policy : Address) : Result (State World) := do
  requireAdmin H env s caller
  pure { s with policy := some policy }

def clearPolicy (caller : Address) : Result (State World) := do
  requireAdmin H env s caller
  require (s.policy ≠ none) .notFound
  pure { s with policy := none }

def setPolicyBypass (caller : Address) (walletId : ℕ) (bypass : Bool) :
    Result (State World) := do
  requireAdmin H env s caller
  let _ ← s.loadWallet walletId
  pure { s with policyBypass := Function.update s.policyBypass walletId bypass }

def setBudget (caller budget : Address) : Result (State World) := do
  requireAdmin H env s caller
  pure { s with budget := some budget }

def setRegistry (caller registry : Address) : Result (State World) := do
  requireAdmin H env s caller
  pure { s with registry := some registry }

def setOrg (caller : Address) (org : String) : Result (State World) := do
  requireAdmin H env s caller
  requireNonEmpty org
  pure { s with org := some org }

def setDefaultBudgetId (caller : Address) (budgetId : String) : Result (State World) := do
  requireAdmin H env s caller
  requireNonEmpty budgetId
  pure { s with defaultBudgetId := some budgetId }

def clearDefaultBudgetId (caller : Address) : Result (State World) := do
  requireAdmin H env s caller
  require (s.defaultBudgetId ≠ none) .notFound
  pure { s with defaultBudgetId := none }

def setAssetBudgetId (caller asset : Address) (budgetId : String) : Result (State World) := do
  requireAdmin H env s caller
  requireNonEmpty budgetId
  pure { s with assetBudgetId := Function.update s.assetBudgetId asset (some budgetId) }

def clearAssetBudgetId (caller asset : Address) : Result (State World) := do
  requireAdmin H env s caller
  require (s.assetBudgetId asset ≠ none) .notFound
  pure { s with assetBudgetId := Function.update s.assetBudgetId asset none }

/-! ## Limits -/

/-- A new window length restarts the recorded usage. -/
def setVelocityLimit (caller : Address) (walletId : ℕ) (asset : Address) (maxAmount : ℤ)
    (windowSeconds : ℕ) : Result (State World) := do
  let wallet ← requireWalletRole H env s walletId caller .admin
  requireNotArchived wallet
  requirePositiveAmount maxAmount
  require (velocityBuckets ≤ windowSeconds ∧ windowSeconds % velocityBuckets = 0) .invalidInput
  let restarts := (s.velocityLimit walletId asset).map (·.windowSeconds) ≠ some windowSeconds
  pure { s with
    velocityUsage := if restarts then State.update₂ s.velocityUsage walletId asset none
      else s.velocityUsage
    velocityLimit := State.update₂ s.velocityLimit walletId asset
      (some ⟨maxAmount, windowSeconds⟩) }

def clearVelocityLimit (caller : Address) (walletId : ℕ) (asset : Address) :
    Result (State World) := do
  let _ ← requireWalletRole H env s walletId caller .admin
  require (s.velocityLimit walletId asset ≠ none) .notFound
  pure { s with
    velocityLimit := State.update₂ s.velocityLimit walletId asset none
    velocityUsage := State.update₂ s.velocityUsage walletId asset none }

def setRateLimit (caller : Address) (walletId : ℕ) (maxVolume : ℤ)
    (maxCount windowSeconds : ℕ) : Result (State World) := do
  let wallet ← requireWalletRole H env s walletId caller .admin
  requireNotArchived wallet
  require (0 ≤ maxVolume) .invalidInput
  if windowSeconds = 0 then
    pure { s with
      rateLimit := Function.update s.rateLimit walletId none
      rateLimitUsage := Function.update s.rateLimitUsage walletId none }
  else do
    require (rateLimitBuckets ≤ windowSeconds ∧ windowSeconds % rateLimitBuckets = 0) .invalidInput
    let restarts := (s.rateLimit walletId).map (·.windowSeconds) ≠ some windowSeconds
    pure { s with
      rateLimitUsage := if restarts then Function.update s.rateLimitUsage walletId none
        else s.rateLimitUsage
      rateLimit := Function.update s.rateLimit walletId
        (some ⟨maxVolume, maxCount, windowSeconds⟩) }

def clearRateLimit (caller : Address) (walletId : ℕ) : Result (State World) := do
  let _ ← requireWalletRole H env s walletId caller .admin
  require (s.rateLimit walletId ≠ none) .notFound
  pure { s with
    rateLimit := Function.update s.rateLimit walletId none
    rateLimitUsage := Function.update s.rateLimitUsage walletId none }

/-! ## Lifecycle and roles -/

def freeze (caller : Address) (walletId : ℕ) : Result (State World) := do
  let wallet ← requireWalletRoleOrAdmin H env s walletId caller .agent
  requireNotArchived wallet
  pure (s.storeWallet walletId { wallet with state := .frozen })

def unfreeze (caller : Address) (walletId : ℕ) : Result (State World) := do
  let wallet ← requireWalletRoleOrAdmin H env s walletId caller .agent
  require (wallet.state = .frozen) .invalidState
  pure (s.storeWallet walletId { wallet with state := .active })

def pause (caller : Address) (walletId : ℕ) : Result (State World) := do
  let wallet ← requireWalletRole H env s walletId caller .admin
  require (wallet.state = .active) .invalidState
  pure (s.storeWallet walletId { wallet with state := .paused })

def unpause (caller : Address) (walletId : ℕ) : Result (State World) := do
  let wallet ← requireWalletRole H env s walletId caller .admin
  require (wallet.state = .paused) .invalidState
  pure (s.storeWallet walletId { wallet with state := .active })

def archive (caller : Address) (walletId : ℕ) : Result (State World) := do
  let wallet ← requireWalletRole H env s walletId caller .admin
  requireNotArchived wallet
  pure (s.storeWallet walletId { wallet with state := .archived })

def grantRole (caller : Address) (walletId : ℕ) (account : Address) (role : Role) :
    Result (State World) := do
  let wallet ← requireWalletRole H env s walletId caller .admin
  requireNotArchived wallet
  require (account ≠ wallet.owner) .invalidInput
  pure { s with role := State.update₂ s.role walletId account (some role) }

def revokeRole (caller : Address) (walletId : ℕ) (account : Address) :
    Result (State World) := do
  let _ ← requireWalletRole H env s walletId caller .admin
  require (s.role walletId account ≠ none) .notFound
  pure { s with role := State.update₂ s.role walletId account none }

/-! ## Deposits -/

def deposit (walletId : ℕ) (src asset : Address) (amount : ℤ) : Result (State World) := do
  requirePositiveAmount amount
  requireAuth env src
  let wallet ← s.loadWallet walletId
  requireNotArchived wallet
  let w ← H.transferOrTrap s.world asset src H.self amount
  State.credit { s with world := w } walletId asset amount

end Administration

/-! ## Spending -/

/-- What `transfer` and `withdraw` do under the lock. -/
def spend (caller : Address) (walletId : ℕ) (payee asset : Address) (amount : ℤ) :
    WalletM World Unit := do
  Act.step State.lock
  unlockOnError (preExecuteChecks H env walletId asset payee amount caller)
  unlockOnError (Act.step (enforceVelocity H env walletId asset amount))
  unlockOnError (Act.step (enforceRateLimit H env walletId amount 1))
  unlockOnError (Act.read (requireCustodyFunds H walletId asset amount))
  unlockOnError (Act.step fun s => s.debit walletId asset amount)
  unlockOnError (Act.step (safeTransferOut H asset payee amount))
  Act.step fun s => .ok s.unlock

def transfer (caller : Address) (walletId : ℕ) (payee asset : Address) (amount : ℤ) :
    WalletM World Unit := do
  Act.read fun _ => requirePositiveAmount amount
  Act.read State.whenNotPaused
  let wallet ← Act.read fun s => requireWalletRole H env s walletId caller .agent
  Act.read fun _ => requireActive wallet
  Act.read fun _ => validateTransferRecipient H payee
  spend H env caller walletId payee asset amount

def withdraw (caller : Address) (walletId : ℕ) (asset : Address) (amount : ℤ) :
    WalletM World Unit := do
  Act.read fun _ => requirePositiveAmount amount
  Act.read State.whenNotPaused
  let wallet ← Act.read fun s => requireWalletRole H env s walletId caller .admin
  Act.read fun _ => requireActive wallet
  spend H env caller walletId wallet.owner asset amount

/-! ## Batches -/

/-- What the first phase of a batch has accumulated. -/
structure BatchTotals where
  totalAmount : ℤ
  budgetRemaining : ℤ
  velocity : VelocityEntries

/-- The policy gate of one action; an empty id skips it. -/
def checkActionPolicy (policy : Option Address) (action : BatchAction) : WalletM World Unit :=
  if action.policyId = "" then
    pure ()
  else do
    let policy ← Act.read fun _ => okOr policy .invalidInput
    Act.step (requirePolicyCheck H env policy action.policyId action.asset action.recipient
      action.amount)

/-- The budget gate of one action; an empty id skips it.  Returns what is left of the
last envelope. -/
def consumeActionBudget (budget : Option Address) (caller : Address) (remaining : ℤ)
    (action : BatchAction) : WalletM World ℤ :=
  if action.budgetId = "" then
    pure remaining
  else do
    let budget ← Act.read fun _ => okOr budget .invalidInput
    Act.returning (tryConsume H env budget action.budgetId caller action.amount)

/-- Phase 1 for one action. -/
def validateAction (walletId : ℕ) (caller : Address) (policy budget : Option Address)
    (totals : BatchTotals) (action : BatchAction) : WalletM World BatchTotals := do
  Act.read fun _ => requirePositiveAmount action.amount
  let totalAmount ← Act.read fun _ => checkedAdd totals.totalAmount action.amount
  checkActionPolicy H env policy action
  let velocity ← Act.read fun s =>
    velocityEnforce H env s walletId totals.velocity action.asset action.amount
  let budgetRemaining ← consumeActionBudget H env budget caller totals.budgetRemaining action
  pure ⟨totalAmount, budgetRemaining, velocity⟩

/-- Phase 1: every action is verified and aggregated before any sub-call. -/
def validateActions (walletId : ℕ) (caller : Address) (policy budget : Option Address)
    (totals : BatchTotals) : List BatchAction → WalletM World BatchTotals
  | [] => pure totals
  | action :: rest => do
      let totals ← validateAction H env walletId caller policy budget totals action
      validateActions walletId caller policy budget totals rest

/-- `execute_call`. -/
def executeCall (call : ContractCall) (s : State World) : Result (State World) :=
  match H.invoke env s.world call with
  | .ok w => .ok { s with world := w }
  | .error (some e) => .error (.error e)
  | .error none => .error (.error .batchCallFailed)

/-- Phase 2: the sub-calls, one after the other. -/
def executeCalls : List BatchAction → WalletM World Unit
  | [] => pure ()
  | action :: rest => do
      Act.step (executeCall H env action.call)
      executeCalls rest

def batchExecuteValidated (caller : Address) (walletId : ℕ) (actions : List BatchAction) :
    WalletM World BatchReceipt := do
  Act.read State.whenNotPaused
  let wallet ← Act.read fun s => requireWalletRole H env s walletId caller .agent
  Act.read fun _ => requireActive wallet
  Act.read fun _ => require (actions ≠ []) .invalidInput
  Act.read fun _ => require (actions.length ≤ maxBatchCalls) .invalidInput
  Act.step State.lock
  let (registryPolicy, registryBudget) ← unlockOnError (Act.read (resolveGates H))
  let (policy, budget) ← Act.read fun s =>
    .ok (if s.registry = none then (s.policy, s.budget) else (registryPolicy, registryBudget))
  let totals ← unlockOnError
    (validateActions H env walletId caller policy budget ⟨0, 0, []⟩ actions)
  unlockOnError (Act.step (enforceRateLimit H env walletId totals.totalAmount actions.length))
  Act.step fun s => .ok (velocityFlush s walletId totals.velocity)
  unlockOnError (executeCalls H env actions)
  Act.step fun s => .ok s.unlock
  pure ⟨actions.length, totals.totalAmount, totals.budgetRemaining⟩

end WalletContract
end Astroid
