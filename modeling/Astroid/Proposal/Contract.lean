import Astroid.Proposal.Record

/-!
# The proposal contract

`proposal/src/lib.rs`, entrypoint by entrypoint.  Storage is one field for each `DataKey`.
Six entrypoints copy out the refund of the deposit by hand; here it is one function
(`returnDeposit`), called where they have it.  Every interaction with a stale proposal,
a view included, first records its expiry (`expireIfDue`).
-/

namespace Astroid
namespace ProposalContract

/-- Tokens, and the multisig at an address as the contract reads it.  A multisig that cannot
answer traps. -/
structure ProposalHost (World : Type) extends TokenHost World where
  getThreshold : World → Address → Option ℕ
  isSigner : World → Address → Address → Option Bool
  getSignerWeight : World → Address → Address → Option ℕ

structure State (World : Type) where
  world : World
  proposalCount : Option ℕ
  multisig : Option Address
  timelock : Option UInt64
  proposal : ℕ → Option Proposal
  approval : ℕ → Address → Bool

/-! ## Storage -/

namespace State

variable {World : Type} (s : State World)

/-- `load`. -/
def load (id : ℕ) : Result Proposal := okOr (s.proposal id) .notFound

/-- `store`. -/
def store (id : ℕ) (p : Proposal) : State World :=
  { s with proposal := Function.update s.proposal id (some p) }

/-- Record that `who` approved proposal `id`. -/
def storeApproval (id : ℕ) (who : Address) : State World :=
  { s with approval := Function.update s.approval id (Function.update (s.approval id) who true) }

/-- `multisig`. -/
def loadMultisig : Result Address := okOr s.multisig .notInitialized

/-- `timelock_delay`. -/
def timelockDelay : UInt64 := s.timelock.getD 0

/-- `purge_proposal`: the record goes, and the approvals of its allow-list. -/
def purgeProposal (id : ℕ) (p : Proposal) : State World :=
  { s with
    proposal := Function.update s.proposal id none
    approval := Function.update s.approval id
      fun who => if who ∈ p.approvers then false else s.approval id who }

end State

variable {World : Type} (H : ProposalHost World) (env : Env H.self) (s : State World)

/-! ## Deposits -/

/-- The transfer of a deposit into the contract; only its first entry is taken. -/
def takeDeposit (proposer : Address) (deposit : List AssetAmount) : Result (State World) :=
  match deposit with
  | [] => .ok s
  | dep :: _ => do
      require (0 < dep.amount) .invalidAmount
      let w ← H.transferOrTrap s.world dep.asset proposer H.self dep.amount
      pure { s with world := w }

/-- The transfer of a deposit back to its proposer. -/
def returnDeposit (p : Proposal) : Result (State World) :=
  match p.deposit with
  | [] => .ok s
  | dep :: _ => do
      let w ← H.transferOrTrap s.world dep.asset H.self p.proposer dep.amount
      pure { s with world := w }

/-- `assert!` that a transition is in the table. -/
def assertTransition (p : Proposal) (next : ProposalState) : Result Unit :=
  Outcome.ensure (p.state.mayTransition next = true) .trap

/-- `expire_if_due`, with the record and the state it leaves. -/
def expireIfDue (id : ℕ) (p : Proposal) : Result (Bool × Proposal × State World) :=
  if p.state = .expired then
    .ok (true, p, s)
  else if p.state.isLive = false ∨ ¬ p.IsExpired env then
    .ok (false, p, s)
  else do
    assertTransition p .expired
    let p := { p with state := .expired }
    let s ← returnDeposit H s p
    pure (true, p, s.store id p)

/-! ## Votes -/

/-- The loop of `live_approval_tally` over the approvers that remain. -/
def tallyApprovals (multisig : Address) (id approvals : ℕ) (weight : ℤ) :
    List Address → Result (ℕ × ℤ)
  | [] => .ok (approvals, weight)
  | approver :: rest =>
      if s.approval id approver = true then do
        let signer ← Outcome.orFail (H.isSigner s.world multisig approver) .trap
        if signer = true then do
          let _ ← checkedAdd approvals 1
          let approverWeight ← Outcome.orFail (H.getSignerWeight s.world multisig approver) .trap
          let weight ← checkedAdd weight approverWeight
          tallyApprovals multisig id ((approvals + 1) % 2 ^ 32) weight rest
        else
          tallyApprovals multisig id approvals weight rest
      else
        tallyApprovals multisig id approvals weight rest

/-- `live_approval_tally`. -/
def liveApprovalTally (id : ℕ) (p : Proposal) : Result (ℕ × ℕ) := do
  let multisig ← s.loadMultisig
  let (approvals, weight) ← tallyApprovals H s multisig id 0 0 p.approvers
  let weight ← tryFromU32 weight
  pure (approvals, weight)

/-! ## Dependencies -/

/-- The loop of `ensure_dependencies_met`. -/
def dependenciesExecuted : List ℕ → Result Unit
  | [] => .ok ()
  | dep :: rest => do
      let prerequisite ← s.load dep
      require (prerequisite.state.hasExecuted = true) .prerequisiteNotMet
      dependenciesExecuted rest

/-- `ensure_dependencies_met`. -/
def ensureDependenciesMet (p : Proposal) : Result Unit := dependenciesExecuted s p.dependencies

/-- `require_timelock_elapsed`. -/
def requireTimelockElapsed (p : Proposal) : Result Unit :=
  requireReleased env p.approvedAt s.timelockDelay

/-! ## Creation -/

def initializeContract (timelock : UInt64) (multisig : Address) : Result (State World) := do
  require (s.proposalCount = none) .alreadyInitialized
  let _ ← Outcome.orFail (H.getThreshold s.world multisig) .trap
  pure { s with proposalCount := some 0, timelock := some timelock, multisig := some multisig }

/-- The loop of `create` over the approvers: they are distinct signers, and their weights
add up. -/
def eligibleWeight (multisig : Address) (unique : List Address) (weight : ℤ) :
    List Address → Result ℤ
  | [] => .ok weight
  | approver :: rest => do
      require (approver ∉ unique) .alreadyExists
      let signer ← Outcome.orFail (H.isSigner s.world multisig approver) .trap
      require (signer = true) .notASigner
      let approverWeight ← Outcome.orFail (H.getSignerWeight s.world multisig approver) .trap
      let weight ← checkedAdd weight approverWeight
      eligibleWeight multisig (unique ++ [approver]) weight rest

/-- The loop of `create` over the declared prerequisites; duplicates are collapsed. -/
def collectDependencies (id : ℕ) (deps : List ℕ) : List ℕ → Result (List ℕ)
  | [] => .ok deps
  | dep :: rest => do
      require (¬ id ≤ dep) .circularDependencyDetected
      require (s.proposal dep ≠ none) .notFound
      collectDependencies id (if dep ∈ deps then deps else deps ++ [dep]) rest

/-- `create`.  The counter is checked as an `i128` and kept as a `u64`. -/
def create (proposer : Address) (org wallet policy : String) (approvers : List Address)
    (dependencies : List ℕ) (threshold : ℕ) (deposit : List AssetAmount)
    (expiresAt gracePeriod : UInt64) : Result (ℕ × State World) := do
  requireAuth env proposer
  requireNonEmpty org
  require (approvers.length ≠ 0 ∧ approvers.length ≤ maxApprovers) .invalidInput
  let multisig ← s.loadMultisig
  let eligible ← eligibleWeight H s multisig [] 0 approvers
  let multisigThreshold ← Outcome.orFail (H.getThreshold s.world multisig) .trap
  require (¬ eligible < multisigThreshold) .invalidThreshold
  require (threshold ≠ 0 ∧ threshold ≤ approvers.length) .invalidThreshold
  let s ← takeDeposit H s proposer deposit
  require (¬ (expiresAt ≠ 0 ∧ expiresAt ≤ env.timestamp)) .invalidInput
  require (dependencies.length ≤ maxDependencies) .invalidInput
  let count ← okOr s.proposalCount .notInitialized
  let id := (count + 1) % 2 ^ 64
  let deps ← collectDependencies s id [] dependencies
  let p : Proposal := {
    proposer := proposer
    org := org
    wallet := wallet
    policy := policy
    approvers := approvers
    dependencies := deps
    threshold := threshold
    approvals := 0
    approvalWeight := 0
    state := .pending
    createdAt := env.timestamp
    approvedAt := 0
    deposit := deposit
    expiresAt := expiresAt
    gracePeriod := gracePeriod }
  pure (id, { s.store id p with proposalCount := some id })

/-! ## Voting -/

/-- The record after a vote: it is approved when its threshold is reached, and the time of
approval starts again when the weight of the multisig is reached later. -/
def afterVote (p : Proposal) (crossed : Bool) : Result Proposal :=
  if p.state = .pending ∧ p.threshold ≤ p.approvals then do
    assertTransition p .approved
    pure { p with state := .approved, approvedAt := env.timestamp }
  else if p.state = .approved ∧ crossed = true then
    .ok { p with approvedAt := env.timestamp }
  else
    .ok p

/-- The weight behind a proposal before a vote; 0 until it is approved. -/
def previousWeight (id : ℕ) (p : Proposal) : Result ℕ :=
  if p.state = .approved then Prod.snd <$> liveApprovalTally H s id p else .ok 0

def approve (caller : Address) (id : ℕ) : Result (ℕ × State World) := do
  requireAuth env caller
  let p ← s.load id
  let (expired, p, s) ← expireIfDue H env s id p
  if expired = true then
    pure (p.approvals, s)
  else do
    require (p.state.isLive = true) .invalidProposalState
    require (caller ∈ p.approvers) .notAnApprover
    let multisig ← s.loadMultisig
    let signer ← Outcome.orFail (H.isSigner s.world multisig caller) .trap
    require (signer = true) .notASigner
    require (s.approval id caller = false) .alreadySigned
    let multisigThreshold ← Outcome.orFail (H.getThreshold s.world multisig) .trap
    let previous ← previousWeight H s id p
    require (¬ (p.state = .approved ∧ multisigThreshold ≤ previous)) .invalidProposalState
    let s := s.storeApproval id caller
    let (approvals, approvalWeight) ← liveApprovalTally H s id p
    let crossed := decide (previous < multisigThreshold ∧ multisigThreshold ≤ approvalWeight)
    let p ← afterVote H env { p with approvals := approvals, approvalWeight := approvalWeight }
      crossed
    pure (p.approvals, s.store id p)

/-! ## Endings -/

def reject (caller : Address) (id : ℕ) : Result (State World) := do
  requireAuth env caller
  let p ← s.load id
  let (expired, p, s) ← expireIfDue H env s id p
  if expired = true then
    pure s
  else do
    require (p.state = .pending) .invalidProposalState
    require (caller ∈ p.approvers) .notAnApprover
    assertTransition p .rejected
    let p := { p with state := .rejected }
    let s ← returnDeposit H s p
    pure (s.store id p)

/-- The window in which a proposal may be cancelled; a grace period of 0 is none. -/
def requireCancellable (p : Proposal) : Result Unit :=
  if p.gracePeriod ≠ 0 then
    require (¬ saturatingAdd p.createdAt p.gracePeriod < env.timestamp) .cancellationWindowClosed
  else
    .ok ()

def cancel (caller : Address) (id : ℕ) : Result (State World) := do
  requireAuth env caller
  let p ← s.load id
  let (expired, p, s) ← expireIfDue H env s id p
  if expired = true then
    pure s
  else do
    require (caller = p.proposer) .unauthorized
    require (p.state.mayTransition .cancelled = true) .invalidProposalState
    requireCancellable H env p
    let p := { p with state := .cancelled }
    let s ← returnDeposit H s p
    pure (s.store id p)

def expire (id : ℕ) : Result (State World) := do
  let p ← s.load id
  let (expired, _, s) ← expireIfDue H env s id p
  require (expired = true) .invalidProposalState
  pure s

def execute (caller : Address) (id : ℕ) : Result (State World) := do
  requireAuth env caller
  let p ← s.load id
  require (¬ p.IsExpired env) .proposalExpired
  let (expired, p, s) ← expireIfDue H env s id p
  if expired = true then
    pure s
  else do
    require (caller = p.proposer) .unauthorized
    require (p.state = .approved) .proposalNotApproved
    let (approvals, approvalWeight) ← liveApprovalTally H s id p
    let p := { p with approvals := approvals, approvalWeight := approvalWeight }
    ensureVoteValid p
    let multisig ← s.loadMultisig
    let multisigThreshold ← Outcome.orFail (H.getThreshold s.world multisig) .trap
    require (¬ approvalWeight < multisigThreshold) .thresholdNotMet
    requireTimelockElapsed H env s p
    ensureDependenciesMet s p
    assertTransition p .executed
    let p := { p with state := .executed }
    let s ← returnDeposit H s p
    pure (s.store id p)

/-- `fail`: the one ending that keeps the deposit. -/
def fail (caller : Address) (id : ℕ) : Result (State World) := do
  requireAuth env caller
  let p ← s.load id
  let (expired, p, s) ← expireIfDue H env s id p
  if expired = true then
    pure s
  else do
    require (caller = p.proposer) .unauthorized
    require (p.state = .approved) .proposalNotApproved
    assertTransition p .failed
    pure (s.store id { p with state := .failed })

def close (caller : Address) (id : ℕ) : Result (State World) := do
  requireAuth env caller
  let p ← s.load id
  let (expired, p, s) ← expireIfDue H env s id p
  if expired = true then
    pure s
  else do
    require (caller = p.proposer) .unauthorized
    require (p.state = .executed) .invalidProposalState
    assertTransition p .closed
    pure (s.store id { p with state := .closed })

/-! ## Pruning -/

/-- `prune_expired`. -/
def pruneExpired (id : ℕ) : Result (State World) := do
  let p ← s.load id
  let (_, p, s) ← expireIfDue H env s id p
  require (p.IsExpired env) .invalidProposalState
  require (p.state.depositSettled = true) .invalidProposalState
  pure (s.purgeProposal id p)

/-- `cleanup_expired`. -/
def cleanupExpired (id : ℕ) : Result (State World) := pruneExpired H env s id

/-- `let _ = ..`: a contract error is dropped, a trap is not. -/
def ignoreError {α : Type} (r : Result α) (otherwise : α) : Result α :=
  match r with
  | .ok a => .ok a
  | .error .trap => .error .trap
  | .error _ => .ok otherwise

/-- One round of the loop the two bulk prunings share, with the number of records pruned. -/
def pruneOne (s : State World) (pruned id : ℕ) : Result (ℕ × State World) :=
  match s.proposal id with
  | none => .ok (pruned, s)
  | some p => do
      let (_, p, s) ← ignoreError (expireIfDue H env s id p) (false, p, s)
      if p.IsExpired env ∧ p.state.depositSettled = true then
        pure (pruned + 1, s.purgeProposal id p)
      else
        pure (pruned, s)

/-- The loop of the bulk prunings over the ids that remain. -/
def pruneEach (s : State World) (pruned : ℕ) : List ℕ → Result (ℕ × State World)
  | [] => .ok (pruned, s)
  | id :: rest => do
      let (pruned, s) ← pruneOne H env s pruned id
      pruneEach s pruned rest

/-- `prune_expired_batch`. -/
def pruneExpiredBatch (ids : List ℕ) : Result (ℕ × State World) := do
  require (ids.length ≤ maxPruneBatch) .invalidInput
  pruneEach H env s 0 ids

/-- `prune_expired_range`. -/
def pruneExpiredRange (startId : UInt64) (limit : ℕ) : Result (ℕ × State World) := do
  require (limit ≠ 0 ∧ limit ≤ maxPruneBatch) .invalidInput
  let sum ← checkedAdd (asI128 startId) limit
  let endId ← tryFromU64 sum
  pruneEach H env s 0 (List.range' startId.toNat (endId.toNat - startId.toNat))

/-! ## Views

A view that reads a proposal settles it first, so it may write. -/

/-- `get`. -/
def get (id : ℕ) : Result (Proposal × State World) := do
  let p ← s.load id
  let (_, p, s) ← expireIfDue H env s id p
  let (approvals, approvalWeight) ← liveApprovalTally H s id p
  pure ({ p with approvals := approvals, approvalWeight := approvalWeight }, s)

/-- A view that answers from the settled record and the state it leaves. -/
def settledView {α : Type} (id : ℕ) (answer : State World → Proposal → α) :
    Result (α × State World) := do
  let p ← s.load id
  let (_, p, s) ← expireIfDue H env s id p
  pure (answer s p, s)

/-- `vote_bars`. -/
def voteBars (id : ℕ) : Result (VoteBars × State World) :=
  settledView H env s id fun _ p => VoteBars.forProposal p

/-- `state`. -/
def stateView (id : ℕ) : Result (ProposalState × State World) :=
  settledView H env s id fun _ p => p.state

/-- `is_expired`. -/
def isExpiredView (id : ℕ) : Result (Bool × State World) :=
  settledView H env s id fun _ p => decide (p.state = .expired ∨ p.IsExpired env)

/-- `is_executed`. -/
def isExecutedView (id : ℕ) : Result (Bool × State World) :=
  settledView H env s id fun _ p => p.state.hasExecuted

/-- `dependencies`. -/
def dependenciesView (id : ℕ) : Result (List ℕ × State World) :=
  settledView H env s id fun _ p => p.dependencies

/-- `dependencies_met`. -/
def dependenciesMet (id : ℕ) : Result (Bool × State World) :=
  settledView H env s id fun s p => (ensureDependenciesMet s p).isOk

/-- `Proposal::can_execute`, in the contract's own context. -/
def Proposal.canExecute (p : Proposal) : Bool :=
  decide (p.IsActive env) && decide (p.state = .approved) && (requireTimelockElapsed H env s p).isOk

/-- `can_execute`. -/
def canExecute (id : ℕ) : Result (Bool × State World) := do
  let p ← s.load id
  let (_, p, s) ← expireIfDue H env s id p
  if p.canExecute H env s = true then do
    let (approvals, approvalWeight) ← liveApprovalTally H s id p
    let p := { p with approvals := approvals, approvalWeight := approvalWeight }
    if (ensureVoteValid p).isOk = true then do
      let multisig ← s.loadMultisig
      let multisigThreshold ← Outcome.orFail (H.getThreshold s.world multisig) .trap
      if approvalWeight < multisigThreshold then
        pure (false, s)
      else
        pure ((ensureDependenciesMet s p).isOk, s)
    else
      pure (false, s)
  else
    pure (false, s)

/-- `release_at`: the view does not settle. -/
def releaseAtView (id : ℕ) : Result UInt64 := do
  let p ← s.load id
  releaseAt p.approvedAt s.timelockDelay

/-- `timelock_status`: the view does not settle. -/
def timelockStatus (id : ℕ) : Result TimeLockStatus := do
  let p ← s.load id
  timeLockStatus env p.approvedAt s.timelockDelay

end ProposalContract
end Astroid
