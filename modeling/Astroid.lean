import Astroid.Escrow.Solvency
import Astroid.Escrow.Dust
import Astroid.Escrow.Ceiling
import Astroid.Escrow.Settlement
import Astroid.Escrow.Windows
import Astroid.Escrow.MilestonePlan
import Astroid.Escrow.ReleaseConditions
import Astroid.Escrow.Overrides
import Astroid.Escrow.RefundView
import Astroid.Treasury.StopSwitch
import Astroid.Treasury.CoolingOff
import Astroid.Treasury.Whitelist
import Astroid.Treasury.Allowances
import Astroid.Treasury.PolicyGate
import Astroid.Treasury.QueuedPayouts
import Astroid.Treasury.Milestones
import Astroid.Wallet.Solvency
import Astroid.Wallet.PolicyGate
import Astroid.Wallet.Velocity
import Astroid.Wallet.RateLimit
import Astroid.Wallet.Lifecycle
import Astroid.Wallet.CachedGate
import Astroid.Wallet.LockRelease
import Astroid.Wallet.Bystanders
import Astroid.Multisig.Governance
import Astroid.Multisig.Invariant
import Astroid.Multisig.Approvals
import Astroid.Multisig.Timelock
import Astroid.Multisig.Batches
import Astroid.Budget.Deficit
import Astroid.Budget.Repayment
import Astroid.Budget.LazySettlement
import Astroid.Budget.Reallocation
import Astroid.Budget.TotalSpend
import Astroid.Budget.Ceilings
import Astroid.Budget.Dormancy
import Astroid.Budget.BatchSpend
import Astroid.Budget.Allowance
import Astroid.Budget.Alignment
import Astroid.Budget.RolloverArithmetic
import Astroid.Policy.Requests
import Astroid.Policy.Isolation
import Astroid.Policy.Recurrence
import Astroid.Policy.GatedTransfers
import Astroid.Policy.RuleTrees
import Astroid.Policy.RuleFormulas
import Astroid.Policy.Verdicts
import Astroid.Proposal.Deposits
import Astroid.Proposal.Prerequisites
import Astroid.Proposal.Order
import Astroid.Proposal.Delay
import Astroid.Proposal.Votes
import Astroid.Proposal.Readiness
import Astroid.Proposal.Pruning
import Astroid.Proposal.Council
import Astroid.Registry.Committed
import Astroid.Registry.Pins
import Astroid.Registry.Routing
import Astroid.Registry.Previews
import Astroid.Registry.Freeze
import Astroid.Registry.Delegation
import Astroid.Registry.Admins
import Astroid.Registry.Audit
import Astroid.Whitelists
import Astroid.Shared.BatchAllowance
import Astroid.Shared.VerifyQuorum
import Astroid.Shared.BalanceLaws
import Astroid.Custodians
import Astroid.Envelopes
import Astroid.Upgrades
import Astroid.Modules
