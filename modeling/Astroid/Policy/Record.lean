import Astroid.Shared.AddressMap
import Astroid.Shared.Host
import Astroid.Shared.Rollover
import Astroid.Shared.Seconds

/-!
# The policy's records

The stored types of `policy/src/lib.rs` and the pure functions on them: the operating
window of a policy, the window of a recurring allowance, why a rule refuses, and the
evaluation of a flattened rule tree.
-/

namespace Astroid
namespace PolicyContract

open Outcome

/-- `MAX_RULE_DEPTH`. -/
def maxRuleDepth : ℕ := 10

/-- `MAX_SPEND_ENTRIES`. -/
def maxSpendEntries : ℕ := 10

/-- `MAX_POLICY_RULES`. -/
def maxPolicyRules : ℕ := 16

/-- `TransactionPayload`. -/
structure TransactionPayload where
  asset : Address
  recipient : Address
  amount : ℤ

/-- `AssetAmount`, an entry of a multi-asset request. -/
structure SpendEntry where
  asset : Address
  amount : I128

/-! ## Policies -/

/-- `PolicyCombinationStrategy`. -/
inductive CombinationStrategy where
  | all
  | any
  deriving DecidableEq

/-- `PolicyDenialReason`. -/
inductive DenialReason where
  | disabled
  | expired
  | recipientBlacklisted
  | merchantBlacklisted
  | recipientNotWhitelisted
  | aboveMaxTransactionLimit
  | recipientNotAllowed
  | assetNotAllowed
  | assetBlacklisted
  | assetNotWhitelisted
  | allowanceExceeded
  | allowanceExpired
  | compositeRuleDenied
  | ruleStackDenied
  | outsideTransferWindow
  deriving DecidableEq

/-- `PolicyDenialReason::to_error`. -/
def DenialReason.toError : DenialReason → Error
  | .disabled | .expired | .recipientNotWhitelisted | .aboveMaxTransactionLimit
  | .recipientNotAllowed | .assetNotAllowed | .assetBlacklisted | .compositeRuleDenied
  | .ruleStackDenied | .outsideTransferWindow => .policyDenied
  | .recipientBlacklisted => .policyRecipientRestricted
  | .merchantBlacklisted => .policyMerchantBlocked
  | .assetNotWhitelisted => .assetNotAuthorized
  | .allowanceExceeded => .allowanceExceeded
  | .allowanceExpired => .allowanceExpired

/-- `PolicyDecision`: the rule that refused, if any, and the ceiling in force. -/
structure Decision where
  denied : Option DenialReason
  maxTransactionAmount : ℤ
  deriving DecidableEq

/-- `Policy`. -/
structure Policy where
  owner : Address
  configHash : List UInt8
  maxAmount : ℤ
  allowedRecipient : Option Address
  allowedAsset : Option Address
  expiresAt : ℕ
  enabled : Bool
  ruleCombinationStrategy : CombinationStrategy
  windowStartTime : ℕ
  windowEndTime : ℕ
  windowDays : ℕ
  deriving DecidableEq

/-- `is_within_transfer_window`. -/
def Policy.isWithinTransferWindow (p : Policy) (now : ℕ) : Bool :=
  if p.windowDays = 0 then
    true
  else
    let timeOfDay := now % p.windowDays
    if p.windowStartTime < p.windowEndTime then
      decide (p.windowStartTime ≤ timeOfDay ∧ timeOfDay < p.windowEndTime)
    else if p.windowStartTime = p.windowEndTime then
      false
    else
      decide (p.windowStartTime ≤ timeOfDay ∨ timeOfDay < p.windowEndTime)

/-! ## Allowances -/

/-- `AssetAllowance`. -/
structure AssetAllowance where
  policyId : String
  asset : Address
  limit : ℤ
  spent : ℤ
  expiresAt : ℕ
  windowSeconds : ℕ
  windowStart : ℕ
  deriving DecidableEq

/-- `settle_window`: a window that has passed starts over at its last boundary. -/
def AssetAllowance.settleWindow (a : AssetAllowance) (now : ℕ) : Result AssetAllowance :=
  if a.windowSeconds = 0 ∨ now < a.windowStart then
    pure a
  else
    let periods := (now - a.windowStart) / a.windowSeconds
    if periods = 0 then
      pure a
    else do
      let advance ← mulSeconds periods a.windowSeconds
      let windowStart ← addSeconds a.windowStart advance
      pure { a with windowStart := windowStart, spent := 0 }

/-! ## Rule trees -/

/-- `RuleOp`. -/
inductive RuleOp where
  | maxAmount
  | allowedRecipient
  | allowedAsset
  | recipientBlacklisted
  | merchantBlacklisted
  | and
  | or
  | not
  deriving DecidableEq

/-- `RuleNode`; the children of a branch are a range of the tree. -/
structure RuleNode where
  op : RuleOp
  valueI128 : ℤ
  valueAddress : Address
  childrenStart : ℕ
  childrenEnd : ℕ

/-- `RuleTree`; the root is at index 0. -/
abbrev RuleTree := List RuleNode

/-- `RuleStack`. -/
abbrev RuleStack := List RuleTree

/-- A branch whose children are not a range of the tree. -/
def RuleNode.badChildren (node : RuleNode) (len : ℕ) : Prop :=
  match node.op with
  | .and | .or => node.childrenEnd ≤ node.childrenStart ∨ len < node.childrenEnd
  | .not => node.childrenEnd ≠ node.childrenStart + 1 ∨ len < node.childrenEnd
  | _ => False

instance (node : RuleNode) (len : ℕ) : Decidable (node.badChildren len) := by
  unfold RuleNode.badChildren
  split <;> infer_instance

/-- `validate_rule_tree`. -/
def validateRuleTree (tree : RuleTree) : Result Unit :=
  require (tree ≠ [] ∧ ∀ node ∈ tree, ¬ node.badChildren tree.length) .invalidInput

/-- `RuleEvaluationContext`: what was read of the blocklists so far. -/
structure RuleEvaluationContext where
  recipientBlacklisted : Option Bool
  merchantBlacklisted : Option Bool

/-- `RuleEvaluationContext::default`. -/
def RuleEvaluationContext.default : RuleEvaluationContext := ⟨none, none⟩

/-- What the blocklists say of the recipient of a payload. -/
structure Listings where
  recipient : Bool
  merchant : Bool
  deriving DecidableEq

/-- The method `recipient_blacklisted`: read once, then remembered. -/
def RuleEvaluationContext.readRecipient (context : RuleEvaluationContext) (listed : Listings) :
    Bool × RuleEvaluationContext :=
  match context.recipientBlacklisted with
  | some isBlacklisted => (isBlacklisted, context)
  | none => (listed.recipient, { context with recipientBlacklisted := some listed.recipient })

/-- The method `merchant_blacklisted`. -/
def RuleEvaluationContext.readMerchant (context : RuleEvaluationContext) (listed : Listings) :
    Bool × RuleEvaluationContext :=
  match context.merchantBlacklisted with
  | some isBlacklisted => (isBlacklisted, context)
  | none => (listed.merchant, { context with merchantBlacklisted := some listed.merchant })

/-- A computation that uses the context and may fail. -/
abbrev Screening (α : Type) := RuleEvaluationContext → Result (α × RuleEvaluationContext)

/-- The loop of `And`: the first child that is false decides. -/
def allChildren (evaluate : ℕ → Screening Bool) : List ℕ → Screening Bool
  | [], context => pure (true, context)
  | i :: rest, context => do
      let (holds, context) ← evaluate i context
      if holds = true then allChildren evaluate rest context else pure (false, context)

/-- The loop of `Or`: the first child that is true decides. -/
def anyChild (evaluate : ℕ → Screening Bool) : List ℕ → Screening Bool
  | [], context => pure (false, context)
  | i :: rest, context => do
      let (holds, context) ← evaluate i context
      if holds = true then pure (true, context) else anyChild evaluate rest context

/-- The indices of the children of a branch. -/
def RuleNode.children (node : RuleNode) : List ℕ :=
  List.range' node.childrenStart (node.childrenEnd - node.childrenStart)

/-- `evaluate_node`. -/
def evaluateNode (listed : Listings) (tree : RuleTree) (payload : TransactionPayload) :
    ℕ → ℕ → Screening Bool
  | 0, _, _ => .error (.error .invalidInput)
  | remaining + 1, nodeIdx, context => do
      let node ← okOr tree[nodeIdx]? .invalidInput
      match node.op with
      | .maxAmount => pure (decide (payload.amount ≤ node.valueI128), context)
      | .allowedRecipient => pure (decide (payload.recipient = node.valueAddress), context)
      | .allowedAsset => pure (decide (payload.asset = node.valueAddress), context)
      | .recipientBlacklisted => pure (context.readRecipient listed)
      | .merchantBlacklisted => pure (context.readMerchant listed)
      | .and =>
          if node.childrenStart = node.childrenEnd then .error (.error .invalidInput)
          else allChildren (evaluateNode listed tree payload remaining) node.children context
      | .or =>
          if node.childrenStart = node.childrenEnd then .error (.error .invalidInput)
          else anyChild (evaluateNode listed tree payload remaining) node.children context
      | .not =>
          if node.childrenEnd ≠ node.childrenStart + 1 then .error (.error .invalidInput)
          else do
            let (holds, context) ←
              evaluateNode listed tree payload remaining node.childrenStart context
            pure (!holds, context)

/-- The rules of a stack, each from its root; an empty tree is passed over. -/
def allRules (evaluate : RuleTree → Screening Bool) : RuleStack → Screening Bool
  | [], context => pure (true, context)
  | tree :: rest, context =>
      if tree = [] then allRules evaluate rest context
      else do
        let (holds, context) ← evaluate tree context
        if holds = true then allRules evaluate rest context else pure (false, context)

def anyRule (evaluate : RuleTree → Screening Bool) : RuleStack → Screening Bool
  | [], context => pure (false, context)
  | tree :: rest, context =>
      if tree = [] then anyRule evaluate rest context
      else do
        let (holds, context) ← evaluate tree context
        if holds = true then pure (true, context) else anyRule evaluate rest context

end PolicyContract
end Astroid
