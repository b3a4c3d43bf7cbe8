import Astroid.Treasury.Contract
import Astroid.Shared.Deployment

/-!
# Runs of the treasury contract

Between two invocations the world may change in any way, except that nobody but
the contract takes tokens out of its custody: tokens may be sent to it directly,
and its address may hold some before it is deployed.
-/

namespace Astroid
namespace TreasuryContract

/-- An invocation of the contract. -/
inductive Call where
  | initializeContract (org : String) (admin : Address)
  | setRegistry (caller : Address) (registry : Option Address)
  | setPolicy (caller policy : Address)
  | setBudget (caller budget : Address)
  | setMultisig (caller multisig : Address)
  | setGuardian (caller guardian : Address)
  | addApprovedAsset (caller asset : Address)
  | removeApprovedAsset (caller asset : Address)
  | freeze (caller : Address)
  | unfreeze (caller : Address)
  | pause (caller : Address)
  | unpause (caller : Address)
  | deposit (src asset : Address) (amount : ℤ)
  | allocateBudget (admin asset : Address) (budgetId : String)
  | setAllowance (admin agent recipient asset : Address) (limit : ℤ) (expiresAt : UInt64)
  | removeAllowance (admin agent recipient asset : Address)
  | withdraw (caller asset payee : Address) (amount : ℤ)
  | batchTransfer (caller asset : Address) (payments : List Payment)
  | setWithdrawalTimeLock (caller : Address) (delay : UInt64) (threshold : ℤ)
  | queueWithdrawal (caller asset payee : Address) (amount : ℤ)
  | queueBatchTransfer (caller asset : Address) (payments : List Payment)
  | executeWithdrawal (caller : Address) (id : ℕ)
  | cancelWithdrawal (caller : Address) (id : ℕ)
  | initMilestoneDisbursement (caller asset payee : Address) (totalAmount : ℤ) (milestones : ℕ)
  | releaseNextMilestone (caller : Address) (milestoneId : ℕ)

variable {World : Type} (H : TreasuryHost World)

/-- Run an entrypoint and keep the state it leaves. -/
def exec (env : Env H.self) (s : State World) : Call → Result (State World)
  | .initializeContract org admin => initializeContract H env s org admin
  | .setRegistry caller registry => setRegistry H env s caller registry
  | .setPolicy caller policy => setPolicy H env s caller policy
  | .setBudget caller budget => setBudget H env s caller budget
  | .setMultisig caller multisig => setMultisig H env s caller multisig
  | .setGuardian caller guardian => setGuardian H env s caller guardian
  | .addApprovedAsset caller asset => addApprovedAsset H env s caller asset
  | .removeApprovedAsset caller asset => removeApprovedAsset H env s caller asset
  | .freeze caller => freeze H env s caller
  | .unfreeze caller => unfreeze H env s caller
  | .pause caller => pause H env s caller
  | .unpause caller => unpause H env s caller
  | .deposit src asset amount => deposit H env s src asset amount
  | .allocateBudget admin asset budgetId => allocateBudget H env s admin asset budgetId
  | .setAllowance admin agent recipient asset limit expiresAt =>
      setAllowance H env s admin agent recipient asset limit expiresAt
  | .removeAllowance admin agent recipient asset =>
      removeAllowance H env s admin agent recipient asset
  | .withdraw caller asset payee amount => withdraw H env s caller asset payee amount
  | .batchTransfer caller asset payments => batchTransfer H env s caller asset payments
  | .setWithdrawalTimeLock caller delay threshold =>
      setWithdrawalTimeLock H env s caller delay threshold
  | .queueWithdrawal caller asset payee amount =>
      Prod.snd <$> queueWithdrawal H env s caller asset payee amount
  | .queueBatchTransfer caller asset payments =>
      Prod.snd <$> queueBatchTransfer H env s caller asset payments
  | .executeWithdrawal caller id => executeWithdrawal H env s caller id
  | .cancelWithdrawal caller id => cancelWithdrawal H env s caller id
  | .initMilestoneDisbursement caller asset payee totalAmount milestones =>
      Prod.snd <$> initMilestoneDisbursement H env s caller asset payee totalAmount milestones
  | .releaseNextMilestone caller milestoneId => releaseNextMilestone H env s caller milestoneId

/-- A contract that was just deployed. -/
structure Fresh (s : State World) : Prop where
  treasury : s.treasury = none
  holding : ∀ asset, s.holding asset = none
  approvedAsset : ∀ asset, s.approvedAsset asset = false
  approvedAssetCount : s.approvedAssetCount = 0
  approvedAssetList : s.approvedAssetList = []
  assetBalance : ∀ asset, s.assetBalance asset = none
  reentrancyLock : s.reentrancyLock = false
  frozen : s.frozen = false
  milestone : ∀ id, s.milestone id = none
  milestoneCount : s.milestoneCount = 0
  allowance : ∀ id, s.allowance id = none
  withdrawalTimeLock : s.withdrawalTimeLock = none
  pendingWithdrawal : ∀ id, s.pendingWithdrawal id = none
  pendingWithdrawalCount : s.pendingWithdrawalCount = 0
  credited : ∀ asset, s.credited asset = 0
  outflows : s.outflows = []
  custody : ∀ asset, 0 ≤ H.custody s.world asset

/-- The treasury contract as deployed. -/
def deployment : Deployment H.self World (State World) Call where
  fresh := Fresh H
  exec := exec H
  outside w s s' :=
    (∀ asset, H.custody s.world asset ≤ H.custody w asset) ∧ s' = { s with world := w }

abbrev Inputs := Input H.self World Call

/-- One step of a run. -/
abbrev Step : Inputs H → State World → State World → Prop := (deployment H).Step

/-- The treasury contract as a machine. -/
abbrev machine : Machine (State World) (Inputs H) := (deployment H).machine

/-- The states the contract can be in. -/
abbrev Reachable (s : State World) : Prop := (machine H).Reachable s

/-! ## A reference deployment -/

/-- The treasury at `contract 0` over the reference ledger.  No registry knows
anybody, and policies and budgets refuse nothing. -/
def referenceHost : TreasuryHost Ledger where
  toTokenHost := ledgerHost (.contract 0)
  lookup _ _ _ _ := none
  checkTransfer _ w _ _ _ _ _ := some w
  consume _ w _ _ _ _ := some w

/-- A fresh contract over a ledger. -/
def deployed (l : Ledger) : State Ledger where
  world := l
  treasury := none
  holding _ := none
  approvedAsset _ := false
  approvedAssetCount := 0
  approvedAssetList := []
  assetBalance _ := none
  reentrancyLock := false
  frozen := false
  milestone _ := none
  milestoneCount := 0
  allowance _ := none
  withdrawalTimeLock := none
  pendingWithdrawal _ := none
  pendingWithdrawalCount := 0
  credited _ := 0
  outflows := []

theorem deployed_fresh {l : Ledger} (h : ∀ asset, 0 ≤ l asset (.contract 0)) :
    Fresh referenceHost (deployed l) :=
  ⟨rfl, fun _ => rfl, fun _ => rfl, rfl, rfl, fun _ => rfl, rfl, rfl, fun _ => rfl, rfl,
    fun _ => rfl, rfl, fun _ => rfl, rfl, fun _ => rfl, rfl, h⟩

/-- The state a list of calls leaves. -/
abbrev play : State Ledger → Script Call → State Ledger := (deployment referenceHost).play

/-- Account 1 holds 100 of the token `contract 7`, and `donated` of it were sent to
the contract directly. -/
def funded (donated : ℤ) : Ledger := fun asset holder =>
  if asset = .contract 7 ∧ holder = .account 1 then 100
  else if asset = .contract 7 ∧ holder = .contract 0 then donated
  else 0

theorem funded_fresh {donated : ℤ} (h : 0 ≤ donated) :
    Fresh referenceHost (deployed (funded donated)) := by
  apply deployed_fresh
  intro asset
  unfold funded
  by_cases hasset : asset = .contract 7 <;> simp [hasset, h]

/-- Account 0 becomes the admin and approves the token, and account 1 deposits all
it holds of it. -/
def opening : Script Call :=
  [(signedBy 0 [0], .initializeContract "org" (.account 0)),
    (signedBy 0 [0], .addApprovedAsset (.account 0) (.contract 7)),
    (signedBy 0 [1], .deposit (.account 1) (.contract 7) 100)]

end TreasuryContract
end Astroid
