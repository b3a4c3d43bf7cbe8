import Astroid.Lib.Outcome

/-!
# The vocabulary the contracts share

Addresses, the protocol-wide error table, the milestone error table, the amount
records and the constants.  The error tables are complete: a claim about which
error a call reports is a claim about these constructors.
-/

namespace Astroid

/-- An account or a contract.  Only a contract can be a token, a module or the
holder of custody. -/
inductive Address where
  | account (n : ℕ)
  | contract (n : ℕ)
  deriving DecidableEq, Repr

/-- `Error`, the table every contract reports from. -/
inductive Error where
  | notFound
  | alreadyExists
  | unauthorized
  | invalidInput
  | notInitialized
  | alreadyInitialized
  | insufficientFunds
  | overflow
  | invalidAmount
  | policyDenied
  | emergencyLock
  | policyRecipientRestricted
  | policyMerchantBlocked
  | policyCategoryRestricted
  | velocityLimitExceeded
  | registryFrozen
  | moduleDeprecated
  | circularUpgrade
  | budgetExceeded
  | budgetFrozen
  | budgetArchived
  | assetNotAuthorized
  | budgetExpired
  | walletFrozen
  | walletArchived
  | walletPaused
  | invalidState
  | rateLimitExceeded
  | thresholdNotMet
  | alreadySigned
  | notASigner
  | invalidThreshold
  | tooManySigners
  | batchCallFailed
  | invalidNonce
  | invalidSignerWeight
  | insufficientWeight
  | timelockNotExpired
  | unauthorizedModification
  | proposalExpired
  | invalidProposalState
  | proposalNotApproved
  | notAnApprover
  | cancellationWindowClosed
  | prerequisiteNotMet
  | circularDependencyDetected
  | escrowExpired
  | timeLockActive
  | graceActive
  | allowanceExceeded
  | allowanceExpired
  | treasuryPaused
  deriving DecidableEq, Repr

/-- `Error::EscrowLocked` is an alias, not a variant of its own. -/
abbrev Error.escrowLocked : Error := .timelockNotExpired

/-- `MilestoneError`, the table of the escrow's milestone entrypoints. -/
inductive MilestoneError where
  | notFound
  | unauthorized
  | invalidInput
  | overflow
  | invalidAmount
  | invalidState
  | invalidMilestone
  | milestoneAlreadyCompleted
  deriving DecidableEq, Repr

/-- `From<Error> for MilestoneError`. -/
def MilestoneError.ofError : Error → MilestoneError
  | .notFound => .notFound
  | .unauthorized => .unauthorized
  | .invalidInput => .invalidInput
  | .overflow => .overflow
  | .invalidAmount => .invalidAmount
  | .invalidState => .invalidState
  | _ => .invalidInput

/-- Why an invocation did not return: a contract error, a milestone error, or a
trap of the host (a refused authorization, a token that panicked, an arithmetic
panic).  All three roll every write back. -/
inductive Fault where
  | error (e : Error)
  | milestone (e : MilestoneError)
  | trap
  deriving DecidableEq, Repr

/-- The outcome of an invocation. -/
abbrev Result (α : Type) := Except Fault α

/-- `if !p { return Err(e) }`. -/
def require (p : Prop) [Decidable p] (e : Error) : Result Unit :=
  Outcome.ensure p (.error e)

/-- `o.ok_or(e)?`. -/
def okOr {α : Type} (o : Option α) (e : Error) : Result α :=
  Outcome.orFail o (.error e)

/-- `if !p { return Err(e) }` in an entrypoint that returns `MilestoneError`. -/
def requireMilestone (p : Prop) [Decidable p] (e : MilestoneError) : Result Unit :=
  Outcome.ensure p (.milestone e)

/-- `o.ok_or(e)?` in an entrypoint that returns `MilestoneError`. -/
def okOrMilestone {α : Type} (o : Option α) (e : MilestoneError) : Result α :=
  Outcome.orFail o (.milestone e)

/-- The `?` of an entrypoint that returns `MilestoneError`, on a callee that
returns `Error`. -/
def intoMilestone {α : Type} : Result α → Result α
  | .error (.error e) => .error (.milestone (.ofError e))
  | r => r

section Inversion

variable {α : Type} {p : Prop} [Decidable p] {e : Error} {m : MilestoneError} {u : Unit}

@[simp] theorem require_eq_ok : require p e = .ok u ↔ p := Outcome.ensure_eq_ok

@[simp] theorem requireMilestone_eq_ok : requireMilestone p m = .ok u ↔ p :=
  Outcome.ensure_eq_ok

@[simp] theorem okOr_eq_ok {o : Option α} {a : α} : okOr o e = .ok a ↔ o = some a :=
  Outcome.orFail_eq_ok

@[simp] theorem okOrMilestone_eq_ok {o : Option α} {a : α} :
    okOrMilestone o m = .ok a ↔ o = some a :=
  Outcome.orFail_eq_ok

@[simp] theorem intoMilestone_eq_ok {r : Result α} {a : α} :
    intoMilestone r = .ok a ↔ r = .ok a := by
  rcases r with (e | m | _) | b <;> simp [intoMilestone]

theorem require_pos (h : p) : require p e = .ok () := Outcome.ensure_pos h

theorem require_neg (h : ¬ p) : require p e = .error (.error e) := Outcome.ensure_neg h

end Inversion

/-- `AssetAmount`: an amount of the token contract `asset`, in its smallest unit. -/
structure AssetAmount where
  asset : Address
  amount : ℤ
  deriving DecidableEq, Repr

/-- `Payment`: one leg of a batch payout; the batch names the asset once. -/
structure Payment where
  recipient : Address
  amount : ℤ
  deriving DecidableEq, Repr

/-- `ResourceState`. -/
inductive ResourceState where
  | active
  | frozen
  | paused
  | archived
  deriving DecidableEq, Repr

/-- `ModuleKind`: what a registered module is. -/
inductive ModuleKind where
  | wallet
  | treasury
  | multisig
  | proposal
  | policy
  | budget
  | escrow
  | organization
  deriving DecidableEq, Repr

/-- `require_non_empty`. -/
def requireNonEmpty (value : String) : Result Unit := require (value ≠ "") .invalidInput

/-! ## Constants -/

def secondsPerDay : ℕ := 86400
def secondsPerWeek : ℕ := 604800
def secondsPerMonth : ℕ := 2592000
def dayInLedgers : ℕ := 17280
def maxSigners : ℕ := 20
def minThreshold : ℕ := 1
def minTimelockDelay : ℕ := secondsPerDay
def maxTimelockDelay : ℕ := 30 * secondsPerDay
def governanceGracePeriod : ℕ := secondsPerWeek
def maxApprovers : ℕ := 32
def proposalQuorumPercent : ℕ := 50
def maxDependencies : ℕ := 8
def maxPruneBatch : ℕ := 32
def maxBatchCalls : ℕ := 16
def maxBatchPayments : ℕ := 32
def maxEscrowAssets : ℕ := 10
def maxPauseDuration : ℕ := secondsPerMonth
def thresholdChangeDelayLedgers : ℕ := dayInLedgers

end Astroid
