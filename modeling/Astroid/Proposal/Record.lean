import Astroid.Shared.Host

/-!
# The proposal's record

`interfaces/src/proposal.rs` (the lifecycle states), the stored record and the vote bars of
`proposal/src/lib.rs`, and `proposal/src/timelock.rs`.  Ids are `u64` counters and votes
`u32` counts: natural numbers, cut off where the source casts.
-/

namespace Astroid
namespace ProposalContract

/-! ## The lifecycle -/

/-- `ProposalState`. -/
inductive ProposalState where
  | created
  | pending
  | approved
  | executed
  | closed
  | rejected
  | cancelled
  | expired
  | failed
  deriving DecidableEq, Repr

namespace ProposalState

/-- `has_executed`. -/
def hasExecuted : ProposalState → Bool
  | .executed | .closed => true
  | _ => false

/-- `deposit_settled`: a record in this state may be purged. -/
def depositSettled : ProposalState → Bool
  | .expired | .rejected | .cancelled | .executed | .closed => true
  | _ => false

/-- `is_live`. -/
def isLive : ProposalState → Bool
  | .pending | .approved => true
  | _ => false

/-- `is_terminal`. -/
def isTerminal (state : ProposalState) : Bool := !state.isLive && decide (state ≠ .created)

/-- `may_transition`: the table every entrypoint that changes a state checks. -/
def mayTransition : ProposalState → ProposalState → Bool
  | .created, .pending => true
  | .pending, .approved | .pending, .rejected | .pending, .cancelled | .pending, .expired => true
  | .approved, .executed | .approved, .failed | .approved, .cancelled | .approved, .expired => true
  | .executed, .closed => true
  | _, _ => false

/-- A final state has no way out but the closing of an executed proposal. -/
theorem not_mayTransition_of_isTerminal {state next : ProposalState}
    (h : state.isTerminal = true) (hopen : state ≠ .executed) :
    state.mayTransition next = false := by
  cases state with
  | created | pending | approved => cases h
  | executed => exact absurd rfl hopen
  | closed | rejected | cancelled | expired | failed => rfl

/-- What may be purged is final. -/
theorem isLive_of_depositSettled {state : ProposalState} (h : state.depositSettled = true) :
    state.isLive = false := by
  cases state <;> first | rfl | cases h

/-- What has executed is final. -/
theorem isLive_of_hasExecuted {state : ProposalState} (h : state.hasExecuted = true) :
    state.isLive = false := by
  cases state <;> first | rfl | cases h

/-- Only a live proposal can be cancelled. -/
theorem isLive_of_mayTransition_cancelled {state : ProposalState}
    (h : state.mayTransition .cancelled = true) : state.isLive = true := by
  cases state <;> first | rfl | cases h

end ProposalState

/-! ## The record -/

/-- `Proposal`. -/
structure Proposal where
  proposer : Address
  org : String
  wallet : String
  policy : String
  approvers : List Address
  dependencies : List ℕ
  threshold : ℕ
  approvals : ℕ
  approvalWeight : ℕ
  state : ProposalState
  createdAt : UInt64
  approvedAt : UInt64
  deposit : List AssetAmount
  expiresAt : UInt64
  gracePeriod : UInt64

/-- `Proposal::is_expired`; a deadline of 0 is none. -/
def Proposal.IsExpired (p : Proposal) {current : Address} (env : Env current) : Prop :=
  p.expiresAt ≠ 0 ∧ p.expiresAt ≤ env.timestamp

instance (p : Proposal) {current : Address} (env : Env current) : Decidable (p.IsExpired env) :=
  inferInstanceAs (Decidable (_ ∧ _))

/-- `Proposal::is_active`. -/
def Proposal.IsActive (p : Proposal) {current : Address} (env : Env current) : Prop :=
  ¬ p.IsExpired env ∧ p.state.isLive = true

instance (p : Proposal) {current : Address} (env : Env current) : Decidable (p.IsActive env) :=
  inferInstanceAs (Decidable (_ ∧ _))

/-! ## The vote bars -/

/-- `VoteBars`. -/
structure VoteBars where
  threshold : ℕ
  quorum : ℕ
  majority : ℕ
  deriving DecidableEq

namespace VoteBars

/-- `quorum_required`: `percent` of the voters, rounded up. -/
def quorumRequired (eligible percent : ℕ) : ℕ := (eligible * min percent 100 + 99) / 100

/-- `majority_required`. -/
def majorityRequired (eligible : ℕ) : ℕ := eligible / 2 + 1

/-- `for_proposal`. -/
def forProposal (p : Proposal) : VoteBars where
  threshold := p.threshold
  quorum := quorumRequired p.approvers.length proposalQuorumPercent
  majority := majorityRequired p.approvers.length

/-- `met_by`. -/
def metBy (bars : VoteBars) (approvals : ℕ) : Bool :=
  decide (bars.threshold ≤ approvals ∧ bars.quorum ≤ approvals ∧ bars.majority ≤ approvals)

/-- `ensure_met`. -/
def ensureMet (bars : VoteBars) (approvals : ℕ) : Result Unit :=
  require (bars.metBy approvals = true) .thresholdNotMet

end VoteBars

/-- `ensure_vote_valid`. -/
def ensureVoteValid (p : Proposal) : Result Unit := (VoteBars.forProposal p).ensureMet p.approvals

/-! ## The time lock -/

/-- `u32::try_from`. -/
def tryFromU32 (x : ℤ) : Result ℕ := do
  require (0 ≤ x ∧ x < 2 ^ 32) .overflow
  pure x.toNat

/-- `u64::try_from`. -/
def tryFromU64 (x : ℤ) : Result UInt64 := do
  require (0 ≤ x ∧ x < 2 ^ 64) .overflow
  pure (asU64 x)

/-- `TimeLockStatus`. -/
structure TimeLockStatus where
  approvedAt : UInt64
  delay : UInt64
  releaseAt : UInt64
  remaining : UInt64
  armed : Bool
  released : Bool
  deriving DecidableEq

/-- `TimeLockStatus::blocking`. -/
def TimeLockStatus.blocking (status : TimeLockStatus) : Bool := status.armed && !status.released

/-- `is_armed`. -/
def isArmed (approvedAt delay : UInt64) : Bool := decide (delay ≠ 0 ∧ approvedAt ≠ 0)

/-- `release_at`; 0 when the lock is not armed. -/
def releaseAt (approvedAt delay : UInt64) : Result UInt64 :=
  if isArmed approvedAt delay = true then do
    let release ← checkedAdd (asI128 approvedAt) (asI128 delay)
    tryFromU64 release
  else
    .ok 0

/-- `time_lock_status`. -/
def timeLockStatus {current : Address} (env : Env current) (approvedAt delay : UInt64) :
    Result TimeLockStatus := do
  let armed := isArmed approvedAt delay
  let release ← releaseAt approvedAt delay
  let released := !armed || decide (release ≤ env.timestamp)
  let remaining :=
    if released = true then 0
    else if env.timestamp ≤ release then release - env.timestamp else 0
  pure ⟨approvedAt, delay, release, remaining, armed, released⟩

/-- `require_released`. -/
def requireReleased {current : Address} (env : Env current) (approvedAt delay : UInt64) :
    Result Unit := do
  let status ← timeLockStatus env approvedAt delay
  require (status.blocking = false) .timelockNotExpired

end ProposalContract
end Astroid
