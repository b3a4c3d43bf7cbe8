import Astroid.Policy.Contract
import Astroid.Shared.Deployment

/-!
# Runs of the policy contract

The contract calls nobody, so between two invocations only time passes.
-/

namespace Astroid
namespace PolicyContract

/-- An invocation of the contract. -/
inductive Call where
  | initializeContract
  | registerPolicy (owner : Address) (id : String) (configHash : List UInt8) (maxAmount : I128)
      (allowedRecipient allowedAsset : Option Address) (expiresAt : UInt64)
      (ruleCombinationStrategy : Option CombinationStrategy)
  | rotatePolicy (caller : Address) (id : String) (newHash : List UInt8) (newMax : I128)
  | setEnabled (caller : Address) (id : String) (enabled : Bool)
  | setRuleCombinationStrategy (caller : Address) (id : String) (strategy : CombinationStrategy)
  | setTransferWindow (caller : Address) (id : String) (startTime endTime windowDays : UInt64)
  | addAssetToWhitelist (caller : Address) (id : String) (asset : Address)
  | removeAssetFromWhitelist (caller : Address) (id : String) (asset : Address)
  | addAssetBlacklist (caller : Address) (id : String) (asset : Address)
  | removeAssetBlacklist (caller : Address) (id : String) (asset : Address)
  | setAssetWhitelistEnabled (caller : Address) (id : String) (enabled : Bool)
  | addBlacklist (caller : Address) (id : String) (address : Address)
  | removeBlacklist (caller : Address) (id : String) (address : Address)
  | addMerchantBlacklist (caller : Address) (id : String) (merchantAddress : Address)
  | removeMerchantBlacklist (caller : Address) (id : String) (merchantAddress : Address)
  | addCategoryBlacklist (caller : Address) (id category : String)
  | removeCategoryBlacklist (caller : Address) (id category : String)
  | addToBlocklist (caller : Address) (id : String) (address : Address)
  | removeFromBlocklist (caller : Address) (id : String) (address : Address)
  | setRecipientWhitelistEnabled (caller : Address) (id : String) (enabled : Bool)
  | addRecipientToWhitelist (caller : Address) (id : String) (recipient : Address)
  | removeRecipientFromWhitelist (caller : Address) (id : String) (recipient : Address)
  | setWhitelistEnabled (caller : Address) (id : String) (enabled : Bool)
  | addWhitelist (caller : Address) (id : String) (recipient : Address)
  | removeWhitelist (caller : Address) (id : String) (recipient : Address)
  | setAllowance (caller : Address) (id : String) (asset : Address) (limit : I128)
      (expiresAt : UInt64)
  | setRecurringAllowance (caller : Address) (id : String) (asset : Address) (limit : I128)
      (windowSeconds expiresAt : UInt64)
  | removeAllowance (caller : Address) (id : String) (asset : Address)
  | updateAllowance (caller : Address) (id : String) (asset : Address) (amount : I128)
  | recordMultiAssetSpend (caller : Address) (id : String) (recipient : Address)
      (amounts : List SpendEntry)
  | setCompositeRule (caller : Address) (id : String) (ruleTree : RuleTree)
  | clearCompositeRule (caller : Address) (id : String)
  | addPolicyRule (caller : Address) (id : String) (ruleTree : RuleTree)
  | removePolicyRule (caller : Address) (id : String) (index : ℕ)
  | clearPolicyRules (caller : Address) (id : String)
  | getAllowance (id : String) (asset : Address)
  | checkAllowance (id : String) (asset : Address) (amount : I128)
  | checkTransfer (id : String) (asset recipient : Address) (amount : I128)
  | evaluatePolicy (id : String) (asset recipient : Address) (amount : I128)
  | checkMultiAssetTransfer (id : String) (recipient : Address) (amounts : List SpendEntry)
  | checkCategory (id category : String)

variable {self : Address}

/-- Run an entrypoint and keep the state it leaves. -/
def exec (env : Env self) (s : State) : Call → Result State
  | .initializeContract => initializeContract s
  | .registerPolicy owner id configHash maxAmount allowedRecipient allowedAsset expiresAt
      ruleCombinationStrategy =>
      registerPolicy env s owner id configHash maxAmount allowedRecipient allowedAsset
        expiresAt.toNat ruleCombinationStrategy
  | .rotatePolicy caller id newHash newMax => rotatePolicy env s caller id newHash newMax
  | .setEnabled caller id enabled => setEnabled env s caller id enabled
  | .setRuleCombinationStrategy caller id strategy =>
      setRuleCombinationStrategy env s caller id strategy
  | .setTransferWindow caller id startTime endTime windowDays =>
      setTransferWindow env s caller id startTime.toNat endTime.toNat windowDays.toNat
  | .addAssetToWhitelist caller id asset => addAssetToWhitelist env s caller id asset
  | .removeAssetFromWhitelist caller id asset => removeAssetFromWhitelist env s caller id asset
  | .addAssetBlacklist caller id asset => addAssetBlacklist env s caller id asset
  | .removeAssetBlacklist caller id asset => removeAssetBlacklist env s caller id asset
  | .setAssetWhitelistEnabled caller id enabled => setAssetWhitelistEnabled env s caller id enabled
  | .addBlacklist caller id address => addBlacklist env s caller id address
  | .removeBlacklist caller id address => removeBlacklist env s caller id address
  | .addMerchantBlacklist caller id merchantAddress =>
      addMerchantBlacklist env s caller id merchantAddress
  | .removeMerchantBlacklist caller id merchantAddress =>
      removeMerchantBlacklist env s caller id merchantAddress
  | .addCategoryBlacklist caller id category => addCategoryBlacklist env s caller id category
  | .removeCategoryBlacklist caller id category => removeCategoryBlacklist env s caller id category
  | .addToBlocklist caller id address => addToBlocklist env s caller id address
  | .removeFromBlocklist caller id address => removeFromBlocklist env s caller id address
  | .setRecipientWhitelistEnabled caller id enabled =>
      setRecipientWhitelistEnabled env s caller id enabled
  | .addRecipientToWhitelist caller id recipient => addRecipientToWhitelist env s caller id recipient
  | .removeRecipientFromWhitelist caller id recipient =>
      removeRecipientFromWhitelist env s caller id recipient
  | .setWhitelistEnabled caller id enabled => setWhitelistEnabled env s caller id enabled
  | .addWhitelist caller id recipient => addWhitelist env s caller id recipient
  | .removeWhitelist caller id recipient => removeWhitelist env s caller id recipient
  | .setAllowance caller id asset limit expiresAt =>
      setAllowance env s caller id asset limit expiresAt.toNat
  | .setRecurringAllowance caller id asset limit windowSeconds expiresAt =>
      setRecurringAllowance env s caller id asset limit windowSeconds.toNat expiresAt.toNat
  | .removeAllowance caller id asset => removeAllowance env s caller id asset
  | .updateAllowance caller id asset amount => updateAllowance env s caller id asset amount
  | .recordMultiAssetSpend caller id recipient amounts =>
      recordMultiAssetSpend env s caller id recipient amounts
  | .setCompositeRule caller id ruleTree => setCompositeRule env s caller id ruleTree
  | .clearCompositeRule caller id => clearCompositeRule env s caller id
  | .addPolicyRule caller id ruleTree => Prod.snd <$> addPolicyRule env s caller id ruleTree
  | .removePolicyRule caller id index => removePolicyRule env s caller id index
  | .clearPolicyRules caller id => clearPolicyRules env s caller id
  | .getAllowance _ _ => .ok s
  | .checkAllowance id asset amount => (fun _ => s) <$> checkAllowance env s id asset amount
  | .checkTransfer id asset recipient amount =>
      (fun _ => s) <$> checkTransfer env s id asset recipient amount
  | .evaluatePolicy id asset recipient amount =>
      (fun _ => s) <$> evaluatePolicy env s id ⟨asset, recipient, amount⟩
  | .checkMultiAssetTransfer id recipient amounts =>
      (fun _ => s) <$> checkMultiAssetTransfer env s id recipient amounts
  | .checkCategory id category => (fun _ => s) <$> checkCategory s id category

/-- What is stored under an identifier nobody registered. -/
def Records.blank : Records where
  policy := none
  assetWhitelist _ := false
  assetBlacklist _ := false
  assetWhitelistEnabled := none
  recipientWhitelist _ := false
  recipientWhitelistEnabled := none
  recipientWhitelistIndex := none
  allowance _ := none
  compositeRule := none
  policyRules := none

/-- A contract that was just deployed. -/
structure Fresh (s : State) : Prop where
  count : s.count = none
  records : ∀ id, s.records id = .blank
  blacklist : ∀ address, s.blacklist address = none
  merchantBlacklist : ∀ address, s.merchantBlacklist address = none
  categoryBlacklist : ∀ category, s.categoryBlacklist category = none

/-- The policy contract as deployed at `self`. -/
def deployment (self : Address) : Deployment self Unit State Call where
  fresh := Fresh
  exec := exec
  outside _ s s' := s' = s

abbrev Inputs (self : Address) := Input self Unit Call

/-- The policy contract as a machine. -/
abbrev machine (self : Address) : Machine State (Inputs self) := (deployment self).machine

/-- The states the contract can be in. -/
abbrev Reachable (self : Address) (s : State) : Prop := (machine self).Reachable s

/-! ## A reference deployment -/

/-- A fresh contract. -/
def deployed : State where
  count := none
  records _ := .blank
  blacklist _ := none
  merchantBlacklist _ := none
  categoryBlacklist _ := none

theorem deployed_fresh : Fresh deployed :=
  ⟨rfl, fun _ => rfl, fun _ => rfl, fun _ => rfl, fun _ => rfl⟩

/-- The state a list of calls to `contract 0` leaves. -/
abbrev play : State → Script Call → State := (deployment (.contract 0)).play

/-- Account `owner` registers the policy `id` without a ceiling or an expiry. -/
def registering (owner : ℕ) (id : String) : Call :=
  .registerPolicy (.account owner) id [] ⟨0, isI128_zero⟩ none none 0 none

end PolicyContract
end Astroid
