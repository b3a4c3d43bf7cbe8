import Astroid.Multisig.Contract
import Astroid.Shared.Deployment

/-!
# Runs of the multisig contract

Between two invocations the world may change in any way: the contract holds
nothing but its own storage.
-/

namespace Astroid
namespace MultisigContract

/-- An invocation of the contract. -/
inductive Call where
  | initializeContract (signers : List SignerWeight) (threshold : ℕ)
  | addSigner (caller signer : Address) (weight : ℕ)
  | removeSigner (caller signer : Address)
  | setThreshold (caller : Address) (threshold : ℕ)
  | finalizeThreshold (caller : Address)
  | proposeThresholdChange (caller : Address) (newThreshold : ℕ)
  | proposeWeightChange (caller signer : Address) (newWeight : ℕ)
  | proposeSignerAddition (caller signer : Address) (weight : ℕ)
  | proposeSignerRemoval (caller signer : Address)
  | proposeTimelockDelayChange (caller : Address) (newDelay : UInt64)
  | executeThresholdChange (caller : Address) (id : ℕ)
  | cancelThresholdChange (caller : Address) (id : ℕ)
  | setEmergencyLock (caller : Address) (locked : Bool)
  | propose (proposer : Address) (action : String) (payload : List UInt8) (unlockAt : UInt64)
  | approve (caller : Address) (id : ℕ)
  | execute (caller : Address) (id : ℕ)
  | executeBatch (caller : Address) (nonce : UInt64) (calls : List BatchCall)
      (approvers : List Address)
  | verifyThreshold (caller : Address) (signatories : List Address) (payload : List UInt8)

variable {World : Type} (H : MultisigHost World)

/-- Run an entrypoint and keep the state it leaves. -/
def exec (env : Env H.self) (s : State World) : Call → Result (State World)
  | .initializeContract signers threshold => initializeContract s signers threshold
  | .addSigner caller signer weight => addSigner H env s caller signer weight
  | .removeSigner caller signer => removeSigner H env s caller signer
  | .setThreshold caller threshold => setThreshold H env s caller threshold
  | .finalizeThreshold caller => finalizeThreshold H env s caller
  | .proposeThresholdChange caller newThreshold =>
      Prod.snd <$> proposeThresholdChange H env s caller newThreshold
  | .proposeWeightChange caller signer newWeight =>
      Prod.snd <$> proposeWeightChange H env s caller signer newWeight
  | .proposeSignerAddition caller signer weight =>
      Prod.snd <$> proposeSignerAddition H env s caller signer weight
  | .proposeSignerRemoval caller signer =>
      Prod.snd <$> proposeSignerRemoval H env s caller signer
  | .proposeTimelockDelayChange caller newDelay =>
      Prod.snd <$> proposeTimelockDelayChange H env s caller newDelay
  | .executeThresholdChange caller id => executeThresholdChange H env s caller id
  | .cancelThresholdChange caller id => cancelThresholdChange H env s caller id
  | .setEmergencyLock caller locked => setEmergencyLock H env s caller locked
  | .propose proposer action payload unlockAt =>
      Prod.snd <$> propose H env s proposer action payload unlockAt
  | .approve caller id => Prod.snd <$> approve H env s caller id
  | .execute caller id => execute H env s caller id
  | .executeBatch caller nonce calls approvers => executeBatch H env s caller nonce calls approvers
  | .verifyThreshold caller signatories payload =>
      (fun _ => s) <$> verifyThreshold H env s caller signatories payload

/-- A contract that was just deployed. -/
structure Fresh (s : State World) : Prop where
  signers : s.signers = none
  threshold : s.threshold = none
  emergencyLock : s.emergencyLock = false
  proposalCount : s.proposalCount = none
  proposal : ∀ id, s.proposal id = none
  approval : ∀ id who, s.approval id who = false
  lastBatchNonce : s.lastBatchNonce = 0
  timelockDelay : s.timelockDelay = none
  changeCount : s.changeCount = 0
  change : ∀ id, s.change id = none
  pendingThreshold : s.pendingThreshold = none

/-- The multisig contract as deployed. -/
def deployment : Deployment H.self World (State World) Call where
  fresh := Fresh
  exec := exec H
  outside w s s' := s' = { s with world := w }

abbrev Inputs := Input H.self World Call

/-- The multisig contract as a machine. -/
abbrev machine : Machine (State World) (Inputs H) := (deployment H).machine

/-- The states the contract can be in. -/
abbrev Reachable (s : State World) : Prop := (machine H).Reachable s

/-! ## A reference deployment -/

/-- The multisig at `contract 0`, whose batches nobody answers. -/
def referenceHost : MultisigHost Unit where
  self := .contract 0
  invoke _ _ _ := .error none

/-- A fresh contract. -/
def deployed : State Unit where
  world := ()
  signers := none
  threshold := none
  emergencyLock := false
  proposalCount := none
  proposal _ := none
  approval _ _ := false
  lastBatchNonce := 0
  timelockDelay := none
  changeCount := 0
  change _ := none
  pendingThreshold := none

theorem deployed_fresh : Fresh deployed :=
  ⟨rfl, rfl, rfl, rfl, fun _ => rfl, fun _ _ => rfl, rfl, rfl, rfl, fun _ => rfl, rfl⟩

/-- The state a list of calls leaves. -/
abbrev play : State Unit → Script Call → State Unit := (deployment referenceHost).play

/-- Accounts 1 and 2 sign with weight 1 each, and both are needed. -/
def opening : Script Call :=
  [(signedBy 0 [], .initializeContract [⟨.account 1, 1⟩, ⟨.account 2, 1⟩] 2)]

end MultisigContract
end Astroid
