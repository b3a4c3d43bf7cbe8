import Astroid.Wallet.Contract
import Astroid.Shared.Deployment

/-!
# Runs of the wallet contract

Between two invocations the world may change in any way, except that nobody but
the contract takes tokens out of its custody.  What the wallet itself takes out
it takes through the token calls it makes, and a batch may make any.
-/

namespace Astroid
namespace WalletContract

/-- An invocation of the contract. -/
inductive Call where
  | initializeContract (admin : Address)
  | setGuardian (caller guardian : Address)
  | emergencyPause (caller : Address)
  | emergencyUnpause (caller : Address)
  | createWallet (owner : Address)
  | setPolicy (caller policy : Address)
  | clearPolicy (caller : Address)
  | setPolicyBypass (caller : Address) (walletId : ℕ) (bypass : Bool)
  | setVelocityLimit (caller : Address) (walletId : ℕ) (asset : Address) (maxAmount : ℤ)
      (windowSeconds : ℕ)
  | clearVelocityLimit (caller : Address) (walletId : ℕ) (asset : Address)
  | setRateLimit (caller : Address) (walletId : ℕ) (maxVolume : ℤ) (maxCount windowSeconds : ℕ)
  | clearRateLimit (caller : Address) (walletId : ℕ)
  | deposit (walletId : ℕ) (src asset : Address) (amount : ℤ)
  | transfer (caller : Address) (walletId : ℕ) (payee asset : Address) (amount : ℤ)
  | withdraw (caller : Address) (walletId : ℕ) (asset : Address) (amount : ℤ)
  | freeze (caller : Address) (walletId : ℕ)
  | unfreeze (caller : Address) (walletId : ℕ)
  | pause (caller : Address) (walletId : ℕ)
  | unpause (caller : Address) (walletId : ℕ)
  | archive (caller : Address) (walletId : ℕ)
  | batchExecuteValidated (caller : Address) (walletId : ℕ) (actions : List BatchAction)
  | setBudget (caller budget : Address)
  | setRegistry (caller registry : Address)
  | setOrg (caller : Address) (org : String)
  | setDefaultBudgetId (caller : Address) (budgetId : String)
  | clearDefaultBudgetId (caller : Address)
  | setAssetBudgetId (caller asset : Address) (budgetId : String)
  | clearAssetBudgetId (caller asset : Address)
  | grantRole (caller : Address) (walletId : ℕ) (account : Address) (role : Role)
  | revokeRole (caller : Address) (walletId : ℕ) (account : Address)

variable {World : Type} (H : WalletHost World)

/-- Run an entrypoint and keep the state it leaves. -/
def exec (env : Env H.self) (s : State World) : Call → Result (State World)
  | .initializeContract admin => initializeContract s admin
  | .setGuardian caller guardian => setGuardian H env s caller guardian
  | .emergencyPause caller => emergencyPause H env s caller
  | .emergencyUnpause caller => emergencyUnpause H env s caller
  | .createWallet owner => Prod.snd <$> createWallet H env s owner
  | .setPolicy caller policy => setPolicy H env s caller policy
  | .clearPolicy caller => clearPolicy H env s caller
  | .setPolicyBypass caller walletId bypass => setPolicyBypass H env s caller walletId bypass
  | .setVelocityLimit caller walletId asset maxAmount windowSeconds =>
      setVelocityLimit H env s caller walletId asset maxAmount windowSeconds
  | .clearVelocityLimit caller walletId asset => clearVelocityLimit H env s caller walletId asset
  | .setRateLimit caller walletId maxVolume maxCount windowSeconds =>
      setRateLimit H env s caller walletId maxVolume maxCount windowSeconds
  | .clearRateLimit caller walletId => clearRateLimit H env s caller walletId
  | .deposit walletId src asset amount => deposit H env s walletId src asset amount
  | .transfer caller walletId payee asset amount =>
      Prod.snd <$> (transfer H env caller walletId payee asset amount).commit s
  | .withdraw caller walletId asset amount =>
      Prod.snd <$> (withdraw H env caller walletId asset amount).commit s
  | .freeze caller walletId => freeze H env s caller walletId
  | .unfreeze caller walletId => unfreeze H env s caller walletId
  | .pause caller walletId => pause H env s caller walletId
  | .unpause caller walletId => unpause H env s caller walletId
  | .archive caller walletId => archive H env s caller walletId
  | .batchExecuteValidated caller walletId actions =>
      Prod.snd <$> (batchExecuteValidated H env caller walletId actions).commit s
  | .setBudget caller budget => setBudget H env s caller budget
  | .setRegistry caller registry => setRegistry H env s caller registry
  | .setOrg caller org => setOrg H env s caller org
  | .setDefaultBudgetId caller budgetId => setDefaultBudgetId H env s caller budgetId
  | .clearDefaultBudgetId caller => clearDefaultBudgetId H env s caller
  | .setAssetBudgetId caller asset budgetId => setAssetBudgetId H env s caller asset budgetId
  | .clearAssetBudgetId caller asset => clearAssetBudgetId H env s caller asset
  | .grantRole caller walletId account role => grantRole H env s caller walletId account role
  | .revokeRole caller walletId account => revokeRole H env s caller walletId account

/-- A contract that was just deployed. -/
structure Fresh (s : State World) : Prop where
  admin : s.admin = none
  guardian : s.guardian = none
  paused : s.paused = false
  walletCount : s.walletCount = none
  budget : s.budget = none
  wallet : ∀ id, s.wallet id = none
  balance : ∀ id asset, s.balance id asset = none
  policy : s.policy = none
  policyBypass : ∀ id, s.policyBypass id = false
  velocityLimit : ∀ id asset, s.velocityLimit id asset = none
  velocityUsage : ∀ id asset, s.velocityUsage id asset = none
  rateLimit : ∀ id, s.rateLimit id = none
  rateLimitUsage : ∀ id, s.rateLimitUsage id = none
  registry : s.registry = none
  org : s.org = none
  reentrancyLock : s.reentrancyLock = false
  defaultBudgetId : s.defaultBudgetId = none
  assetBudgetId : ∀ asset, s.assetBudgetId asset = none
  role : ∀ id account, s.role id account = none
  custody : ∀ asset, 0 ≤ H.custody s.world asset

/-- The wallet contract as deployed. -/
def deployment : Deployment H.self World (State World) Call where
  fresh := Fresh H
  exec := exec H
  outside w s s' :=
    (∀ asset, H.custody s.world asset ≤ H.custody w asset) ∧ s' = { s with world := w }

abbrev Inputs := Input H.self World Call

/-- The wallet contract as a machine. -/
abbrev machine : Machine (State World) (Inputs H) := (deployment H).machine

/-! ## A reference deployment -/

/-- The wallet contract at `contract 0` over the reference ledger.  There is no registry,
policies and budgets refuse nothing, and the only sub-call that anybody answers
is a token's `transfer` out of the caller's own holdings. -/
def referenceHost : WalletHost Ledger where
  toTokenHost := ledgerHost (.contract 0)
  getModulesBatch _ _ _ _ := .error none
  checkTransfer _ w _ _ _ _ _ := some w
  consume _ w _ _ _ _ := .ok (w, 0)
  invoke _ w call :=
    match call.fnName, call.args with
    | "transfer", [.address src, .address dst, .i128 amount] =>
        if src = .contract 0 then
          match (ledgerHost (.contract 0)).transfer w call.contractAddr src dst amount with
          | .ok w' => .ok w'
          | .error _ => .error none
        else
          .error none
    | _, _ => .error none

/-- A fresh contract over a ledger. -/
def deployed (l : Ledger) : State Ledger where
  world := l
  admin := none
  guardian := none
  paused := false
  walletCount := none
  budget := none
  wallet _ := none
  balance _ _ := none
  policy := none
  policyBypass _ := false
  velocityLimit _ _ := none
  velocityUsage _ _ := none
  rateLimit _ := none
  rateLimitUsage _ := none
  registry := none
  org := none
  reentrancyLock := false
  defaultBudgetId := none
  assetBudgetId _ := none
  role _ _ := none

theorem deployed_fresh {l : Ledger} (h : ∀ asset, 0 ≤ l asset (.contract 0)) :
    Fresh referenceHost (deployed l) :=
  ⟨rfl, rfl, rfl, rfl, rfl, fun _ => rfl, fun _ _ => rfl, rfl, fun _ => rfl, fun _ _ => rfl,
    fun _ _ => rfl, fun _ => rfl, fun _ => rfl, rfl, rfl, rfl, rfl, fun _ => rfl,
    fun _ _ => rfl, h⟩

/-- The state a list of calls leaves. -/
abbrev play : State Ledger → Script Call → State Ledger := (deployment referenceHost).play

/-- Account 1 holds 100 of the token `contract 7`. -/
def funded : Ledger := fun asset holder =>
  if asset = .contract 7 ∧ holder = .account 1 then 100 else 0

theorem funded_fresh : Fresh referenceHost (deployed funded) := by
  apply deployed_fresh
  intro asset
  unfold funded
  simp

/-- Account 3 becomes the admin, and account 1 opens a wallet and deposits all it holds. -/
def opening : Script Call :=
  [(signedBy 0 [3], .initializeContract (.account 3)),
    (signedBy 0 [1], .createWallet (.account 1)),
    (signedBy 0 [1], .deposit 1 (.account 1) (.contract 7) 100)]

end WalletContract
end Astroid
