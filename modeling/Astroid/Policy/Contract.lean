import Astroid.Policy.Record

/-!
# The policy contract

`policy/src/lib.rs`, entrypoint by entrypoint.  Everything the contract stores under the
identifier of a policy is one `Records`; the three blocklists are not kept by policy.
The rules themselves are one walk (`Records.evaluateDecision`) over what is stored under
the identifier and what the blocklists say of the recipient.
-/

namespace Astroid
namespace PolicyContract

open Outcome

/-- What is stored under the identifier of a policy. -/
structure Records where
  policy : Option Policy
  assetWhitelist : Address → Bool
  assetBlacklist : Address → Bool
  assetWhitelistEnabled : Option Bool
  recipientWhitelist : Address → Bool
  recipientWhitelistEnabled : Option Bool
  recipientWhitelistIndex : Option (List Address)
  allowance : Address → Option AssetAllowance
  compositeRule : Option RuleTree
  policyRules : Option RuleStack

/-- The storage; a blocklist entry holds the policy that listed it. -/
structure State where
  count : Option ℕ
  records : String → Records
  blacklist : Address → Option String
  merchantBlacklist : Address → Option String
  categoryBlacklist : String → Option String

namespace State

variable (s : State)

/-- `load`. -/
def load (id : String) : Result Policy := okOr (s.records id).policy .notFound

/-- Rewrite what is stored under one identifier. -/
def amend (id : String) (f : Records → Records) : State :=
  { s with records := Function.update s.records id (f (s.records id)) }

/-- What the blocklists say of a recipient. -/
def listings (recipient : Address) : Listings where
  recipient := (s.blacklist recipient).isSome
  merchant := (s.merchantBlacklist recipient).isSome

end State

variable {self : Address} (env : Env self) (s : State)

/-! ## Guards -/

/-- `require_policy_owner`. -/
def requirePolicyOwner (caller : Address) (id : String) : Result Policy := do
  requireAuth env caller
  let policy ← s.load id
  require (policy.owner = caller) .unauthorized
  pure policy

/-- A key that is added must be new. -/
def requireNew (listed : Bool) : Result Unit := require (listed = false) .alreadyExists

/-- A key that is removed must be there. -/
def requireListed (listed : Bool) : Result Unit := require (listed = true) .notFound

/-! ## Policies -/

def initializeContract : Result State := do
  require (s.count = none) .alreadyInitialized
  pure { s with count := some 0 }

/-- `register_policy`, by anybody. -/
def registerPolicy (owner : Address) (id : String) (configHash : List UInt8) (maxAmount : ℤ)
    (allowedRecipient allowedAsset : Option Address) (expiresAt : ℕ)
    (ruleCombinationStrategy : Option CombinationStrategy) : Result State := do
  requireAuth env owner
  requireNonEmpty id
  require ((s.records id).policy = none) .alreadyExists
  let policy : Policy :=
    { owner := owner
      configHash := configHash
      maxAmount := maxAmount
      allowedRecipient := allowedRecipient
      allowedAsset := allowedAsset
      expiresAt := expiresAt
      enabled := true
      ruleCombinationStrategy := ruleCombinationStrategy.getD .all
      windowStartTime := 0
      windowEndTime := 0
      windowDays := 0 }
  pure (s.amend id fun r => { r with policy := some policy })

def rotatePolicy (caller : Address) (id : String) (newHash : List UInt8) (newMax : ℤ) :
    Result State := do
  let policy ← requirePolicyOwner env s caller id
  let policy := { policy with configHash := newHash, maxAmount := newMax }
  pure (s.amend id fun r => { r with policy := some policy })

def setEnabled (caller : Address) (id : String) (enabled : Bool) : Result State := do
  let policy ← requirePolicyOwner env s caller id
  pure (s.amend id fun r => { r with policy := some { policy with enabled := enabled } })

def setRuleCombinationStrategy (caller : Address) (id : String)
    (strategy : CombinationStrategy) : Result State := do
  let policy ← requirePolicyOwner env s caller id
  let policy := { policy with ruleCombinationStrategy := strategy }
  pure (s.amend id fun r => { r with policy := some policy })

def setTransferWindow (caller : Address) (id : String) (startTime endTime windowDays : ℕ) :
    Result State := do
  let policy ← requirePolicyOwner env s caller id
  require (¬ (windowDays ≠ 0 ∧ (windowDays ≤ startTime ∨ windowDays ≤ endTime))) .invalidInput
  require (windowDays ≤ secondsPerMonth) .invalidInput
  let policy :=
    { policy with
      windowStartTime := startTime
      windowEndTime := endTime
      windowDays := windowDays }
  pure (s.amend id fun r => { r with policy := some policy })

/-! ## Assets -/

def addAssetToWhitelist (caller : Address) (id : String) (asset : Address) : Result State := do
  let _ ← requirePolicyOwner env s caller id
  requireNew ((s.records id).assetWhitelist asset)
  pure (s.amend id fun r =>
    { r with assetWhitelist := Function.update r.assetWhitelist asset true })

def removeAssetFromWhitelist (caller : Address) (id : String) (asset : Address) :
    Result State := do
  let _ ← requirePolicyOwner env s caller id
  requireListed ((s.records id).assetWhitelist asset)
  pure (s.amend id fun r =>
    { r with assetWhitelist := Function.update r.assetWhitelist asset false })

def addAssetBlacklist (caller : Address) (id : String) (asset : Address) : Result State := do
  let _ ← requirePolicyOwner env s caller id
  requireNew ((s.records id).assetBlacklist asset)
  pure (s.amend id fun r =>
    { r with assetBlacklist := Function.update r.assetBlacklist asset true })

def removeAssetBlacklist (caller : Address) (id : String) (asset : Address) : Result State := do
  let _ ← requirePolicyOwner env s caller id
  requireListed ((s.records id).assetBlacklist asset)
  pure (s.amend id fun r =>
    { r with assetBlacklist := Function.update r.assetBlacklist asset false })

def setAssetWhitelistEnabled (caller : Address) (id : String) (enabled : Bool) :
    Result State := do
  let _ ← requirePolicyOwner env s caller id
  pure (s.amend id fun r => { r with assetWhitelistEnabled := some enabled })

/-- `asset_whitelist_denied`. -/
def Records.assetWhitelistDenied (r : Records) (asset : Address) : Bool :=
  r.assetWhitelistEnabled.getD false && !r.assetWhitelist asset

/-! ## Blocklists -/

/-- `add_blacklist`.  The entry is kept under the address alone. -/
def addBlacklist (caller : Address) (id : String) (address : Address) : Result State := do
  let _ ← requirePolicyOwner env s caller id
  requireNew (s.blacklist address).isSome
  pure { s with blacklist := Function.update s.blacklist address (some id) }

/-- `remove_blacklist`, whichever policy the entry holds. -/
def removeBlacklist (caller : Address) (id : String) (address : Address) : Result State := do
  let _ ← requirePolicyOwner env s caller id
  requireListed (s.blacklist address).isSome
  pure { s with blacklist := Function.update s.blacklist address none }

def addMerchantBlacklist (caller : Address) (id : String) (merchantAddress : Address) :
    Result State := do
  let _ ← requirePolicyOwner env s caller id
  requireNew (s.merchantBlacklist merchantAddress).isSome
  pure { s with
    merchantBlacklist := Function.update s.merchantBlacklist merchantAddress (some id) }

def removeMerchantBlacklist (caller : Address) (id : String) (merchantAddress : Address) :
    Result State := do
  let _ ← requirePolicyOwner env s caller id
  requireListed (s.merchantBlacklist merchantAddress).isSome
  pure { s with merchantBlacklist := Function.update s.merchantBlacklist merchantAddress none }

def addCategoryBlacklist (caller : Address) (id category : String) : Result State := do
  let _ ← requirePolicyOwner env s caller id
  requireNonEmpty category
  requireNew (s.categoryBlacklist category).isSome
  pure { s with categoryBlacklist := Function.update s.categoryBlacklist category (some id) }

def removeCategoryBlacklist (caller : Address) (id category : String) : Result State := do
  let _ ← requirePolicyOwner env s caller id
  requireListed (s.categoryBlacklist category).isSome
  pure { s with categoryBlacklist := Function.update s.categoryBlacklist category none }

/-- `add_to_blocklist`, on the same key as `add_blacklist`. -/
def addToBlocklist (caller : Address) (id : String) (address : Address) : Result State :=
  addBlacklist env s caller id address

/-- `remove_from_blocklist`. -/
def removeFromBlocklist (caller : Address) (id : String) (address : Address) : Result State :=
  removeBlacklist env s caller id address

/-- `check_category`; the empty category is always allowed. -/
def checkCategory (_id category : String) : Result Unit :=
  if category = "" then
    pure ()
  else
    require ((s.categoryBlacklist category).isSome = false) .policyCategoryRestricted

/-! ## Recipients -/

def setRecipientWhitelistEnabled (caller : Address) (id : String) (enabled : Bool) :
    Result State := do
  let _ ← requirePolicyOwner env s caller id
  pure (s.amend id fun r => { r with recipientWhitelistEnabled := some enabled })

def addRecipientToWhitelist (caller : Address) (id : String) (recipient : Address) :
    Result State := do
  let _ ← requirePolicyOwner env s caller id
  requireNew ((s.records id).recipientWhitelist recipient)
  pure (s.amend id fun r =>
    { r with
      recipientWhitelist := Function.update r.recipientWhitelist recipient true
      recipientWhitelistIndex := some (r.recipientWhitelistIndex.getD [] ++ [recipient]) })

/-- `remove_recipient_from_whitelist`; the index goes with its last entry. -/
def removeRecipientFromWhitelist (caller : Address) (id : String) (recipient : Address) :
    Result State := do
  let _ ← requirePolicyOwner env s caller id
  requireListed ((s.records id).recipientWhitelist recipient)
  pure (s.amend id fun r =>
    let index := (r.recipientWhitelistIndex.getD []).erase recipient
    { r with
      recipientWhitelist := Function.update r.recipientWhitelist recipient false
      recipientWhitelistIndex := if index = [] then none else some index })

/-- `recipient_whitelist_denied`. -/
def Records.recipientWhitelistDenied (r : Records) (recipient : Address) : Bool :=
  r.recipientWhitelistEnabled.getD false && !r.recipientWhitelist recipient

/-- `set_whitelist_enabled`. -/
def setWhitelistEnabled (caller : Address) (id : String) (enabled : Bool) : Result State :=
  setRecipientWhitelistEnabled env s caller id enabled

/-- `add_whitelist`. -/
def addWhitelist (caller : Address) (id : String) (recipient : Address) : Result State :=
  addRecipientToWhitelist env s caller id recipient

/-- `remove_whitelist`. -/
def removeWhitelist (caller : Address) (id : String) (recipient : Address) : Result State :=
  removeRecipientFromWhitelist env s caller id recipient

/-! ## Allowances -/

/-- The record of an asset no allowance was set for. -/
def AssetAllowance.unset (id : String) (asset : Address) : AssetAllowance where
  policyId := id
  asset := asset
  limit := 0
  spent := 0
  expiresAt := 0
  windowSeconds := 0
  windowStart := 0

/-- What is stored for an asset, or the record of one that is not. -/
def Records.allowanceOrUnset (r : Records) (id : String) (asset : Address) : AssetAllowance :=
  (r.allowance asset).getD (.unset id asset)

/-- `get_allowance`: as of the current window, or as stored if it cannot be settled. -/
def getAllowance (id : String) (asset : Address) : AssetAllowance :=
  let allowance := (s.records id).allowanceOrUnset id asset
  match allowance.settleWindow env.timestamp.toNat with
  | .ok settled => settled
  | .error _ => allowance

/-- Store an allowance under its own policy and asset. -/
def State.storeAllowance (a : AssetAllowance) : State :=
  s.amend a.policyId fun r => { r with allowance := Function.update r.allowance a.asset (some a) }

/-- The part of `store_allowance` that sets the window: another window starts now. -/
def AssetAllowance.withWindow (a : AssetAllowance) (now : ℕ) : Option ℕ → AssetAllowance
  | none => a
  | some window =>
      if window ≠ a.windowSeconds then { a with windowSeconds := window, windowStart := now } else a

/-- `store_allowance`.  A new record starts now, and what was spent stays. -/
def storeAllowance (caller : Address) (id : String) (asset : Address) (limit : ℤ)
    (windowSeconds : Option ℕ) (expiresAt : ℕ) : Result State := do
  let _ ← requirePolicyOwner env s caller id
  requireNonNegativeAmount limit
  let now := env.timestamp.toNat
  let allowance := getAllowance env s id asset
  let allowance :=
    if (s.records id).allowance asset = none then { allowance with windowStart := now }
    else allowance
  let allowance := allowance.withWindow now windowSeconds
  let allowance :=
    { allowance with limit := limit, expiresAt := expiresAt, policyId := id, asset := asset }
  pure (s.storeAllowance allowance)

def setAllowance (caller : Address) (id : String) (asset : Address) (limit : ℤ)
    (expiresAt : ℕ) : Result State :=
  storeAllowance env s caller id asset limit none expiresAt

def setRecurringAllowance (caller : Address) (id : String) (asset : Address) (limit : ℤ)
    (windowSeconds expiresAt : ℕ) : Result State :=
  storeAllowance env s caller id asset limit (some windowSeconds) expiresAt

def removeAllowance (caller : Address) (id : String) (asset : Address) : Result State := do
  let _ ← requirePolicyOwner env s caller id
  requireListed ((s.records id).allowance asset).isSome
  pure (s.amend id fun r => { r with allowance := Function.update r.allowance asset none })

/-- `consume_allowance` on a record that limits. -/
def AssetAllowance.consume (a : AssetAllowance) (now : ℕ) (amount : ℤ) :
    Result AssetAllowance := do
  require (¬ (a.expiresAt ≠ 0 ∧ a.expiresAt ≤ now)) .allowanceExpired
  let a ← a.settleWindow now
  let headroom ← checkedSub a.limit a.spent
  require (amount ≤ headroom) .allowanceExceeded
  let spent ← checkedAdd a.spent amount
  pure { a with spent := spent }

/-- `consume_allowance`; a limit of 0 is none. -/
def Records.consumeAllowance (r : Records) (now : ℕ) (asset : Address) (amount : ℤ) :
    Result (Option AssetAllowance) :=
  match r.allowance asset with
  | none => pure none
  | some allowance =>
      if allowance.limit = 0 then
        pure none
      else do
        let allowance ← allowance.consume now amount
        pure (some allowance)

/-- `persist_spend`. -/
def persistSpend (a : AssetAllowance) : State := s.storeAllowance a

def checkAllowance (id : String) (asset : Address) (amount : ℤ) : Result ℤ := do
  requireNonNegativeAmount amount
  let allowance ← (s.records id).consumeAllowance env.timestamp.toNat asset amount
  match allowance with
  | none => pure i128Max
  | some allowance => checkedSub allowance.limit allowance.spent

def updateAllowance (caller : Address) (id : String) (asset : Address) (amount : ℤ) :
    Result State := do
  let _ ← requirePolicyOwner env s caller id
  requirePositiveAmount amount
  let allowance ← (s.records id).consumeAllowance env.timestamp.toNat asset amount
  match allowance with
  | none => pure s
  | some allowance => pure (persistSpend s allowance)

/-! ## Rules -/

def setCompositeRule (caller : Address) (id : String) (ruleTree : RuleTree) : Result State := do
  let _ ← requirePolicyOwner env s caller id
  validateRuleTree ruleTree
  pure (s.amend id fun r => { r with compositeRule := some ruleTree })

def clearCompositeRule (caller : Address) (id : String) : Result State := do
  let _ ← requirePolicyOwner env s caller id
  requireListed (s.records id).compositeRule.isSome
  pure (s.amend id fun r => { r with compositeRule := none })

/-- `evaluate_composite_rule_with_context`. -/
def Records.evaluateCompositeRule (r : Records) (listed : Listings)
    (payload : TransactionPayload) : Screening Bool := fun context =>
  match r.compositeRule with
  | none => pure (true, context)
  | some tree =>
      if tree = [] then pure (true, context)
      else evaluateNode listed tree payload maxRuleDepth 0 context

def addPolicyRule (caller : Address) (id : String) (ruleTree : RuleTree) :
    Result (ℕ × State) := do
  let _ ← requirePolicyOwner env s caller id
  validateRuleTree ruleTree
  let stack := (s.records id).policyRules.getD []
  require (stack.length < maxPolicyRules) .invalidInput
  let stack := stack ++ [ruleTree]
  pure (stack.length, s.amend id fun r => { r with policyRules := some stack })

/-- `remove_policy_rule`; the stack goes with its last rule. -/
def removePolicyRule (caller : Address) (id : String) (index : ℕ) : Result State := do
  let _ ← requirePolicyOwner env s caller id
  let stack ← okOr (s.records id).policyRules .notFound
  require (index < stack.length) .invalidInput
  let stack := stack.eraseIdx index
  pure (s.amend id fun r =>
    { r with policyRules := if stack = [] then none else some stack })

def clearPolicyRules (caller : Address) (id : String) : Result State := do
  let _ ← requirePolicyOwner env s caller id
  requireListed (s.records id).policyRules.isSome
  pure (s.amend id fun r => { r with policyRules := none })

/-- `evaluate_policy_rules_with_context`. -/
def Records.evaluatePolicyRules (r : Records) (listed : Listings) (payload : TransactionPayload)
    (strategy : CombinationStrategy) : Screening Bool := fun context =>
  let stack := r.policyRules.getD []
  let evaluate := fun tree => evaluateNode listed tree payload maxRuleDepth 0
  match strategy with
  | .all => allRules evaluate stack context
  | .any => if stack.length = 0 then pure (true, context) else anyRule evaluate stack context

/-! ## The walk -/

/-- `screen_recipient_rules`. -/
def Records.screenRecipientRules (r : Records) (listed : Listings) (now : ℕ) (policy : Policy)
    (recipient : Address) : Screening (Option DenialReason) := fun context =>
  if policy.enabled = false then
    pure (some .disabled, context)
  else
    let (recipientBlacklisted, context) := context.readRecipient listed
    if recipientBlacklisted = true then
      pure (some .recipientBlacklisted, context)
    else
      let (merchantBlacklisted, context) := context.readMerchant listed
      if merchantBlacklisted = true then
        pure (some .merchantBlacklisted, context)
      else if r.recipientWhitelistDenied recipient = true then
        pure (some .recipientNotWhitelisted, context)
      else if policy.isWithinTransferWindow now = false then
        pure (some .outsideTransferWindow, context)
      else if policy.expiresAt ≠ 0 ∧ policy.expiresAt ≤ now then
        pure (some .expired, context)
      else
        pure (none, context)

/-- The gates of `screen_asset_rules` before the allowance. -/
def Records.screenGates (r : Records) (policy : Policy) (asset recipient : Address) (amount : ℤ) :
    Option DenialReason :=
  if policy.maxAmount ≠ 0 ∧ policy.maxAmount < amount then
    some .aboveMaxTransactionLimit
  else if policy.allowedRecipient.any (fun allowed => decide (allowed ≠ recipient)) = true then
    some .recipientNotAllowed
  else if policy.allowedAsset.any (fun allowed => decide (allowed ≠ asset)) = true then
    some .assetNotAllowed
  else if r.assetBlacklist asset = true then
    some .assetBlacklisted
  else if r.assetWhitelistDenied asset = true then
    some .assetNotWhitelisted
  else
    none

/-- What one leg of a spend comes to: the allowance it leaves, or why it is refused. -/
inductive Screened where
  | passed (allowance : Option AssetAllowance)
  | denied (reason : DenialReason)
  deriving DecidableEq

/-- The rules of `screen_asset_rules` after the allowance. -/
def Records.screenRules (r : Records) (listed : Listings) (policy : Policy)
    (payload : TransactionPayload) (allowance : Option AssetAllowance) : Screening Screened :=
  fun context => do
    let (holds, context) ← r.evaluateCompositeRule listed payload context
    if holds = false then
      pure (.denied .compositeRuleDenied, context)
    else do
      let (holds, context) ←
        r.evaluatePolicyRules listed payload policy.ruleCombinationStrategy context
      if holds = false then
        pure (.denied .ruleStackDenied, context)
      else
        pure (.passed allowance, context)

/-- `screen_asset_rules`.  An allowance that refuses is a denial, and any other error of it
is an error. -/
def Records.screenAssetRules (r : Records) (listed : Listings) (now : ℕ) (policy : Policy)
    (asset recipient : Address) (amount : ℤ) : Screening Screened := fun context =>
  match r.screenGates policy asset recipient amount with
  | some reason => pure (.denied reason, context)
  | none =>
      match r.consumeAllowance now asset amount with
      | .ok allowance =>
          r.screenRules listed policy ⟨asset, recipient, amount⟩ allowance context
      | .error (.error .allowanceExpired) => pure (.denied .allowanceExpired, context)
      | .error (.error .allowanceExceeded) => pure (.denied .allowanceExceeded, context)
      | .error other => .error other

/-- `evaluate_policy_decision`. -/
def Records.evaluatePolicyDecision (r : Records) (listed : Listings) (now : ℕ)
    (payload : TransactionPayload) : Result Decision := do
  let policy ← okOr r.policy .notFound
  let (denial, context) ← r.screenRecipientRules listed now policy payload.recipient .default
  match denial with
  | some reason => pure ⟨some reason, policy.maxAmount⟩
  | none => do
      let (screened, _) ←
        r.screenAssetRules listed now policy payload.asset payload.recipient payload.amount context
      match screened with
      | .denied reason => pure ⟨some reason, policy.maxAmount⟩
      | .passed _ => pure ⟨none, policy.maxAmount⟩

/-- `enforce_decision`. -/
def enforceDecision (decision : Decision) : Result Unit :=
  match decision.denied with
  | none => pure ()
  | some reason => .error (.error reason.toError)

def evaluatePolicy (id : String) (payload : TransactionPayload) : Result Decision := do
  requirePositiveAmount payload.amount
  (s.records id).evaluatePolicyDecision (s.listings payload.recipient) env.timestamp.toNat payload

/-- `check_transfer`; nothing is stored. -/
def checkTransfer (id : String) (asset recipient : Address) (amount : ℤ) : Result Unit := do
  requirePositiveAmount amount
  let decision ← (s.records id).evaluatePolicyDecision (s.listings recipient)
    env.timestamp.toNat ⟨asset, recipient, amount⟩
  enforceDecision decision

/-! ## Requests of several assets -/

/-- The loop of `aggregate_amounts`. -/
def addEntries (totals : AddressMap ℤ) : List SpendEntry → Result (AddressMap ℤ)
  | [] => pure totals
  | entry :: rest => do
      requirePositiveAmount entry.amount
      let total ← checkedAdd (totals[entry.asset]?.getD 0) entry.amount
      addEntries (totals.insert entry.asset total) rest

/-- `aggregate_amounts`. -/
def aggregateAmounts (amounts : List SpendEntry) : Result (AddressMap ℤ) := do
  require (amounts ≠ [] ∧ amounts.length ≤ maxSpendEntries) .invalidInput
  addEntries ∅ amounts

/-- The loop of `evaluate_spend`: the first leg that is refused refuses the request. -/
def Records.screenLegs (r : Records) (listed : Listings) (now : ℕ) (policy : Policy)
    (recipient : Address) : List (Address × ℤ) → RuleEvaluationContext →
    Result (List AssetAllowance)
  | [], _ => pure []
  | leg :: rest, context => do
      let (screened, context) ←
        r.screenAssetRules listed now policy leg.1 recipient leg.2 context
      match screened with
      | .denied reason => .error (.error reason.toError)
      | .passed allowance => do
          let later ← r.screenLegs listed now policy recipient rest context
          pure (allowance.toList ++ later)

/-- `evaluate_spend`, legs in the order of their assets. -/
def evaluateSpend (id : String) (recipient : Address) (amounts : List SpendEntry) :
    Result (AddressMap ℤ × List AssetAllowance) := do
  let totals ← aggregateAmounts amounts
  let r := s.records id
  let policy ← okOr r.policy .notFound
  let listed := s.listings recipient
  let now := env.timestamp.toNat
  let (denial, context) ← r.screenRecipientRules listed now policy recipient .default
  match denial with
  | some reason => .error (.error reason.toError)
  | none => do
      let updated ← r.screenLegs listed now policy recipient totals.toList context
      pure (totals, updated)

def checkMultiAssetTransfer (id : String) (recipient : Address) (amounts : List SpendEntry) :
    Result Unit := do
  let _ ← evaluateSpend env s id recipient amounts
  pure ()

/-- The loop of `record_multi_asset_spend`. -/
def persistSpends (totals : AddressMap ℤ) (s : State) : List AssetAllowance → Result State
  | [] => pure s
  | allowance :: rest => do
      let _ ← okOr totals[allowance.asset]? .notFound
      persistSpends totals (persistSpend s allowance) rest

def recordMultiAssetSpend (caller : Address) (id : String) (recipient : Address)
    (amounts : List SpendEntry) : Result State := do
  let _ ← requirePolicyOwner env s caller id
  let spend ← evaluateSpend env s id recipient amounts
  persistSpends spend.1 s spend.2

end PolicyContract
end Astroid
