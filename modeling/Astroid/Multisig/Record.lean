import Astroid.Shared.Host

/-!
# The multisig's records

The stored types of `multisig/src/storage.rs`, the weight arithmetic and the
threshold predicate of `multisig/src/quorum.rs`, and lookups in a signer set.
Weights are `u32`: natural numbers whose sums are checked.
-/

namespace Astroid
namespace MultisigContract

/-- `SignerWeight`. -/
structure SignerWeight where
  address : Address
  weight : ℕ
  deriving DecidableEq

/-- `PendingThresholdChange`. -/
structure PendingThresholdChange where
  newThreshold : ℕ
  effectiveFrom : UInt32
  deriving DecidableEq

/-- `MsProposal`. -/
structure MsProposal where
  proposer : Address
  action : String
  payload : List UInt8
  approvalWeight : ℕ
  executed : Bool
  unlockAt : UInt64
  deriving DecidableEq

/-- `GovernanceChange`: each variant carries the state it will apply. -/
inductive GovernanceChange where
  | threshold (newThreshold : ℕ)
  | signerWeight (signer : Address) (weight : ℕ)
  | addSigner (signer : Address) (weight : ℕ)
  | removeSigner (signer : Address)
  | timelockDelay (delay : UInt64)
  deriving DecidableEq

/-- `PendingChange`. -/
structure PendingChange where
  proposer : Address
  change : GovernanceChange
  proposedAt : UInt64
  eta : UInt64
  expiresAt : UInt64
  executed : Bool
  cancelled : Bool
  deriving DecidableEq

/-- Neither executed nor cancelled. -/
def PendingChange.IsOpen (p : PendingChange) : Prop := p.executed = false ∧ p.cancelled = false

instance (p : PendingChange) : Decidable p.IsOpen := inferInstanceAs (Decidable (_ ∧ _))

/-- `BatchCall`. -/
structure BatchCall where
  contract : Address
  func : String
  args : List Val

/-- A batch call as the host value a signature covers. -/
def BatchCall.toVal (call : BatchCall) : Val :=
  .map [("args", .vec call.args), ("contract", .address call.contract), ("func", .symbol call.func)]

/-! ## Weights and the threshold -/

/-- `add_weight`. -/
def addWeight (total : ℤ) (weight : ℕ) : Result ℤ := checkedAdd total weight

/-- `narrow`, and `to_weight`: a sum that does not fit in a `u32` is refused. -/
def narrow (total : ℤ) : Result ℕ :=
  if 2 ^ 32 - 1 < total then .error (.error .overflow) else .ok total.toNat

/-- `is_met`. -/
def isMet (weight threshold : ℕ) : Bool := decide (threshold ≤ weight)

/-- `QuorumStatus`. -/
structure QuorumStatus where
  approvalWeight : ℕ
  approvers : ℕ
  threshold : ℕ
  totalWeight : ℕ
  remaining : ℕ
  met : Bool
  deriving DecidableEq

/-- `QuorumStatus::evaluate`. -/
def QuorumStatus.evaluate (approvalWeight approvers threshold totalWeight : ℕ) : QuorumStatus where
  approvalWeight := approvalWeight
  approvers := approvers
  threshold := threshold
  totalWeight := totalWeight
  remaining := threshold - approvalWeight
  met := isMet approvalWeight threshold

/-- `QuorumStatus::ensure_met`. -/
def QuorumStatus.ensureMet (status : QuorumStatus) (shortfall : Error) : Result Unit :=
  require (status.met = true) shortfall

/-- `require_quorum`. -/
def requireQuorum (sum threshold : ℕ) (shortfall : Error) : Result Unit :=
  require (isMet sum threshold = true) shortfall

/-! ## Signer sets -/

/-- The loop of `total_weight`. -/
def sumWeights (total : ℤ) : List SignerWeight → Result ℤ
  | [] => .ok total
  | s :: rest => do
      let total ← addWeight total s.weight
      sumWeights total rest

/-- `total_weight`. -/
def totalWeight (signers : List SignerWeight) : Result ℕ := do
  let total ← sumWeights 0 signers
  narrow total

/-- `signers.iter().any(|s| s.address == who)`. -/
def IsSignerIn (signers : List SignerWeight) (who : Address) : Prop :=
  who ∈ signers.map (·.address)

instance (signers : List SignerWeight) (who : Address) : Decidable (IsSignerIn signers who) :=
  inferInstanceAs (Decidable (_ ∈ _))

/-- `weight_in`. -/
def weightIn (signers : List SignerWeight) (who : Address) : Result ℕ := do
  let s ← okOr (signers.find? (·.address = who)) .notASigner
  pure s.weight

/-- `index_of`. -/
def indexOf (signers : List SignerWeight) (who : Address) : Result ℕ :=
  okOr (signers.findIdx? (·.address = who)) .notASigner

/-- `assert_unique`. -/
def assertUnique (signers : List SignerWeight) : Result Unit :=
  require (signers.map (·.address)).Nodup .invalidInput

/-- `validate_threshold`. -/
def validateThreshold (threshold n : ℕ) : Result Unit :=
  require (minThreshold ≤ threshold ∧ threshold ≤ n) .invalidThreshold

end MultisigContract
end Astroid
