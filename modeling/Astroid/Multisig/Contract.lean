import Astroid.Multisig.Record

/-!
# The multisig contract

`multisig/src/lib.rs`, entrypoint by entrypoint.  Storage is one field for each
`DataKey`.  Three routes write the signer set and the threshold: the direct
edits, the set and finalize pair, and the queue of timelocked changes.
-/

namespace Astroid
namespace MultisigContract

/-- The contracts a batch may call as the multisig.  A callee that fails leaves no
trace. -/
structure MultisigHost (World : Type) where
  self : Address
  invoke : Env self → World → BatchCall → Except (Option Error) World

structure State (World : Type) where
  world : World
  signers : Option (List SignerWeight)
  threshold : Option ℕ
  emergencyLock : Bool
  proposalCount : Option ℕ
  proposal : ℕ → Option MsProposal
  approval : ℕ → Address → Bool
  lastBatchNonce : UInt64
  timelockDelay : Option UInt64
  changeCount : ℕ
  change : ℕ → Option PendingChange
  pendingThreshold : Option PendingThresholdChange

/-! ## Storage -/

namespace State

variable {World : Type} (s : State World)

/-- `signers`. -/
def loadSigners : Result (List SignerWeight) := okOr s.signers .notInitialized

/-- `threshold`. -/
def loadThreshold : Result ℕ := okOr s.threshold .notInitialized

/-- `timelock_delay`. -/
def loadTimelockDelay : UInt64 := s.timelockDelay.getD (UInt64.ofNat minTimelockDelay)

/-- `load_proposal`. -/
def loadProposal (id : ℕ) : Result MsProposal := okOr (s.proposal id) .notFound

def storeProposal (id : ℕ) (p : MsProposal) : State World :=
  { s with proposal := Function.update s.proposal id (some p) }

/-- Record that `who` approved proposal `id`. -/
def storeApproval (id : ℕ) (who : Address) : State World :=
  { s with approval := Function.update s.approval id (Function.update (s.approval id) who true) }

/-- `load_change`. -/
def loadChange (id : ℕ) : Result PendingChange := okOr (s.change id) .notFound

def storeChange (id : ℕ) (p : PendingChange) : State World :=
  { s with change := Function.update s.change id (some p) }

/-- `require_not_locked`. -/
def requireNotLocked : Result Unit := require (s.emergencyLock = false) .emergencyLock

end State

variable {World : Type} (H : MultisigHost World) (env : Env H.self) (s : State World)

/-! ## Guards -/

/-- `require_signer`. -/
def requireSigner (caller : Address) : Result Unit := do
  requireAuth env caller
  let signers ← s.loadSigners
  require (IsSignerIn signers caller) .notASigner

/-- `require_signer_weight`. -/
def requireSignerWeight (caller : Address) : Result ℕ := do
  requireAuth env caller
  let signers ← s.loadSigners
  weightIn signers caller

/-- `require_governor`: as `require_signer`, with its own error. -/
def requireGovernor (caller : Address) : Result Unit := do
  requireAuth env caller
  let signers ← s.loadSigners
  require (IsSignerIn signers caller) .unauthorizedModification

/-- `require_change_open`. -/
def requireChangeOpen (p : PendingChange) : Result Unit := require p.IsOpen .invalidProposalState

/-! ## Quorum -/

/-- The loop of `live_tally` over the signers that remain. -/
def tallyApprovals (id : ℕ) (total : ℤ) (approvers : ℕ) : List SignerWeight → Result (ℤ × ℕ)
  | [] => .ok (total, approvers)
  | signer :: rest =>
      if s.approval id signer.address = true then do
        let total ← addWeight total signer.weight
        let approvers ← checkedCount approvers 1
        tallyApprovals id total approvers rest
      else
        tallyApprovals id total approvers rest

/-- `live_tally`. -/
def liveTally (id : ℕ) : Result (ℕ × ℕ) := do
  let signers ← s.loadSigners
  let (total, approvers) ← tallyApprovals s id 0 0 signers
  let weight ← narrow total
  pure (weight, approvers)

/-- `quorum_status`. -/
def quorumStatus (id : ℕ) : Result QuorumStatus := do
  let signers ← s.loadSigners
  let (approvalWeight, approvers) ← liveTally s id
  let threshold ← s.loadThreshold
  let total ← totalWeight signers
  pure (QuorumStatus.evaluate approvalWeight approvers threshold total)

/-- The loop of `accumulate_weight`; an address already seen is skipped. -/
def accumulateSignatories (signers : List SignerWeight) (args : List Val) (seen : List Address)
    (total : ℤ) : List Address → Result ℤ
  | [] => .ok total
  | who :: rest =>
      if who ∈ seen then
        accumulateSignatories signers args seen total rest
      else do
        let weight ← weightIn signers who
        requireAuthForArgs env who args
        let total ← addWeight total weight
        accumulateSignatories signers args (seen ++ [who]) total rest

/-- `accumulate_weight`. -/
def accumulateWeight (signers : List SignerWeight) (caller : Address) (signatories : List Address)
    (args : List Val) : Result ℕ := do
  let callerWeight ← weightIn signers caller
  requireAuthForArgs env caller args
  let total ← accumulateSignatories H env signers args [caller] callerWeight signatories
  narrow total

/-- `verify_threshold`. -/
def verifyThreshold (caller : Address) (signatories : List Address) (payload : List UInt8) :
    Result ℕ := do
  s.requireNotLocked
  require (signatories.length ≤ maxSigners) .invalidInput
  let signers ← s.loadSigners
  let threshold ← s.loadThreshold
  let weight ← accumulateWeight H env signers caller signatories [.bytes payload]
  require (threshold ≤ weight) .thresholdNotMet
  pure weight

/-! ## The signer set and the threshold -/

def initializeContract (signers : List SignerWeight) (threshold : ℕ) : Result (State World) := do
  require (s.threshold = none) .alreadyInitialized
  require (signers.length ≠ 0 ∧ signers.length ≤ maxSigners) .invalidInput
  require (∀ signer ∈ signers, signer.weight ≠ 0) .insufficientWeight
  assertUnique signers
  let total ← totalWeight signers
  validateThreshold threshold total
  pure { s with
    signers := some signers
    threshold := some threshold
    emergencyLock := false
    proposalCount := some 0
    lastBatchNonce := 0
    changeCount := 0
    timelockDelay := some (UInt64.ofNat minTimelockDelay) }

def addSigner (caller signer : Address) (weight : ℕ) : Result (State World) := do
  requireSigner H env s caller
  require (weight ≠ 0) .invalidSignerWeight
  let signers ← s.loadSigners
  require (¬ IsSignerIn signers signer) .alreadyExists
  require (signers.length < maxSigners) .tooManySigners
  let total ← totalWeight signers
  let sum ← checkedAdd total weight
  let _ ← narrow sum
  pure { s with signers := some (signers ++ [⟨signer, weight⟩]) }

def removeSigner (caller signer : Address) : Result (State World) := do
  requireSigner H env s caller
  let signers ← s.loadSigners
  let threshold ← s.loadThreshold
  let idx ← indexOf signers signer
  let total ← totalWeight signers
  let removed ← Outcome.orFail signers[idx]? .trap
  let remaining ← checkedSub total removed.weight
  require (¬ remaining < threshold) .invalidThreshold
  pure { s with signers := some (signers.eraseIdx idx) }

def setThreshold (caller : Address) (threshold : ℕ) : Result (State World) := do
  requireSigner H env s caller
  let signers ← s.loadSigners
  let total ← totalWeight signers
  validateThreshold threshold total
  let current ← s.loadThreshold
  require (current ≠ threshold) .invalidThreshold
  pure { s with pendingThreshold := some ⟨threshold, env.sequence⟩ }

def finalizeThreshold (caller : Address) : Result (State World) := do
  requireSigner H env s caller
  let pending ← okOr s.pendingThreshold .notFound
  require (pending.effectiveFrom ≤ env.sequence) .timelockNotExpired
  require (thresholdChangeDelayLedgers ≤ (env.sequence - pending.effectiveFrom).toNat)
    .timelockNotExpired
  let signers ← s.loadSigners
  let total ← totalWeight signers
  validateThreshold pending.newThreshold total
  pure { s with threshold := some pending.newThreshold, pendingThreshold := none }

/-! ## Timelocked governance -/

/-- `validate_change`: the change is valid against the live signer set and threshold. -/
def validateChange (change : GovernanceChange) : Result Unit := do
  let signers ← s.loadSigners
  let threshold ← s.loadThreshold
  let total ← totalWeight signers
  match change with
  | .threshold newThreshold => do
      let total ← narrow total
      validateThreshold newThreshold total
  | .signerWeight signer weight => do
      require (weight ≠ 0) .invalidSignerWeight
      let current ← weightIn signers signer
      let others ← checkedSub total current
      let newTotal ← checkedAdd others weight
      let _ ← narrow newTotal
      require (¬ newTotal < threshold) .invalidThreshold
  | .addSigner signer weight => do
      require (weight ≠ 0) .invalidSignerWeight
      require (¬ IsSignerIn signers signer) .alreadyExists
      require (signers.length < maxSigners) .tooManySigners
      let newTotal ← checkedAdd total weight
      let _ ← narrow newTotal
  | .removeSigner signer => do
      let removed ← weightIn signers signer
      let remaining ← checkedSub total removed
      require (¬ remaining < threshold) .invalidThreshold
  | .timelockDelay delay =>
      require (minTimelockDelay ≤ delay.toNat ∧ delay.toNat ≤ maxTimelockDelay) .invalidInput

/-- `apply_change`. -/
def applyChange : GovernanceChange → Result (State World)
  | .threshold newThreshold => .ok { s with threshold := some newThreshold }
  | .signerWeight signer weight => do
      let signers ← s.loadSigners
      let idx ← indexOf signers signer
      let updated ← Outcome.orFail signers[idx]? .trap
      pure { s with signers := some (signers.set idx { updated with weight := weight }) }
  | .addSigner signer weight => do
      let signers ← s.loadSigners
      pure { s with signers := some (signers ++ [⟨signer, weight⟩]) }
  | .removeSigner signer => do
      let signers ← s.loadSigners
      let idx ← indexOf signers signer
      pure { s with signers := some (signers.eraseIdx idx) }
  | .timelockDelay delay => .ok { s with timelockDelay := some delay }

/-- `propose_change`.  The counter is checked as an `i128` and kept as a `u64`. -/
def proposeChange (caller : Address) (change : GovernanceChange) : Result (ℕ × State World) := do
  s.requireNotLocked
  requireGovernor H env s caller
  validateChange s change
  let id := (s.changeCount + 1) % 2 ^ 64
  let eta ← checkedAddU64 env.timestamp s.loadTimelockDelay
  let expiresAt ← checkedAddU64 eta (UInt64.ofNat governanceGracePeriod)
  let pending : PendingChange := ⟨caller, change, env.timestamp, eta, expiresAt, false, false⟩
  pure (id, { s.storeChange id pending with changeCount := id })

def proposeThresholdChange (caller : Address) (newThreshold : ℕ) : Result (ℕ × State World) :=
  proposeChange H env s caller (.threshold newThreshold)

def proposeWeightChange (caller signer : Address) (newWeight : ℕ) : Result (ℕ × State World) :=
  proposeChange H env s caller (.signerWeight signer newWeight)

def proposeSignerAddition (caller signer : Address) (weight : ℕ) : Result (ℕ × State World) :=
  proposeChange H env s caller (.addSigner signer weight)

def proposeSignerRemoval (caller signer : Address) : Result (ℕ × State World) :=
  proposeChange H env s caller (.removeSigner signer)

def proposeTimelockDelayChange (caller : Address) (newDelay : UInt64) :
    Result (ℕ × State World) :=
  proposeChange H env s caller (.timelockDelay newDelay)

def executeThresholdChange (caller : Address) (id : ℕ) : Result (State World) := do
  s.requireNotLocked
  requireGovernor H env s caller
  let pending ← s.loadChange id
  requireChangeOpen pending
  require (¬ env.timestamp < pending.eta) .timelockNotExpired
  require (¬ pending.expiresAt ≤ env.timestamp) .proposalExpired
  validateChange s pending.change
  let s ← applyChange s pending.change
  pure (s.storeChange id { pending with executed := true })

/-- Any signer may cancel, and the emergency lock does not stand in the way. -/
def cancelThresholdChange (caller : Address) (id : ℕ) : Result (State World) := do
  requireGovernor H env s caller
  let pending ← s.loadChange id
  requireChangeOpen pending
  pure (s.storeChange id { pending with cancelled := true })

def setEmergencyLock (caller : Address) (locked : Bool) : Result (State World) := do
  requireSigner H env s caller
  pure { s with emergencyLock := locked }

/-! ## Proposals -/

/-- `is_quorum_or_weight_action`. -/
def isQuorumOrWeightAction (action : String) : Bool :=
  decide (action ∈ ["weight", "threshold", "signer", "quorum", "config"])

def propose (proposer : Address) (action : String) (payload : List UInt8) (unlockAt : UInt64) :
    Result (ℕ × State World) := do
  s.requireNotLocked
  let weight ← requireSignerWeight H env s proposer
  let count ← okOr s.proposalCount .notInitialized
  let id := (count + 1) % 2 ^ 64
  let minUnlock := saturatingAdd env.timestamp s.loadTimelockDelay
  let unlockAt :=
    if isQuorumOrWeightAction action = true ∧ unlockAt < minUnlock then minUnlock else unlockAt
  let s := (s.storeProposal id ⟨proposer, action, payload, weight, false, unlockAt⟩).storeApproval
    id proposer
  let s := { s with proposalCount := some id }
  let _ ← quorumStatus s id
  pure (id, s)

def approve (caller : Address) (id : ℕ) : Result (ℕ × State World) := do
  s.requireNotLocked
  let _ ← requireSignerWeight H env s caller
  let proposal ← s.loadProposal id
  require (proposal.executed = false) .invalidProposalState
  require (s.approval id caller = false) .alreadySigned
  let s := s.storeApproval id caller
  let _ ← s.loadThreshold
  let status ← quorumStatus s id
  pure (status.approvalWeight,
    s.storeProposal id { proposal with approvalWeight := status.approvalWeight })

/-- The time lock of a proposal; 0 is none. -/
def requireUnlocked (p : MsProposal) : Result Unit :=
  if p.unlockAt ≠ 0 then requireTimeReached env p.unlockAt else .ok ()

def execute (caller : Address) (id : ℕ) : Result (State World) := do
  s.requireNotLocked
  requireSigner H env s caller
  let proposal ← s.loadProposal id
  require (proposal.executed = false) .invalidProposalState
  let status ← quorumStatus s id
  status.ensureMet .insufficientWeight
  requireUnlocked H env proposal
  pure (s.storeProposal id { proposal with
    approvalWeight := status.approvalWeight
    executed := true })

/-! ## Batches -/

/-- `batch_payload`. -/
def batchPayload (nonce : UInt64) (calls : List BatchCall) : List Val :=
  [.u64 nonce, .vec (calls.map (·.toVal))]

/-- `execute_call`. -/
def executeCall (call : BatchCall) : Result (State World) :=
  match H.invoke env s.world call with
  | .ok w => .ok { s with world := w }
  | .error (some e) => .error (.error e)
  | .error none => .error (.error .batchCallFailed)

/-- The calls of a batch, one after the other. -/
def executeCalls (s : State World) : List BatchCall → Result (State World)
  | [] => .ok s
  | call :: rest => do
      let s ← executeCall H env s call
      executeCalls s rest

def executeBatch (caller : Address) (nonce : UInt64) (calls : List BatchCall)
    (approvers : List Address) : Result (State World) := do
  s.requireNotLocked
  let signers ← s.loadSigners
  let threshold ← s.loadThreshold
  require (IsSignerIn signers caller) .notASigner
  require (calls ≠ [] ∧ calls.length ≤ maxBatchCalls) .invalidInput
  require (approvers.length ≤ maxSigners) .invalidInput
  require (s.lastBatchNonce < nonce) .invalidNonce
  let weight ← accumulateWeight H env signers caller approvers (batchPayload nonce calls)
  requireQuorum weight threshold .thresholdNotMet
  let _ ← totalWeight signers
  executeCalls H env { s with lastBatchNonce := nonce } calls

end MultisigContract
end Astroid
