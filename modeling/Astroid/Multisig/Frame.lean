import Astroid.Multisig.Invariant

/-!
# What a call leaves alone

Three calls write proposals and approvals, and seven the queue of governance changes.
Once the contract is initialized every other call leaves both alone, and the calls of one
kind leave the other's records alone (`exec_frame`).
-/

namespace Astroid
namespace MultisigContract

open Outcome

variable {World : Type} {H : MultisigHost World} {env : Env H.self} {s s' : State World}

/-- The call writes proposals or approvals. -/
def Call.Votes : Call → Prop
  | .propose .. | .approve .. | .execute .. => True
  | _ => False

/-- The call writes the queue of changes. -/
def Call.Queues : Call → Prop
  | .proposeThresholdChange .. | .proposeWeightChange .. | .proposeSignerAddition ..
  | .proposeSignerRemoval .. | .proposeTimelockDelayChange .. | .executeThresholdChange ..
  | .cancelThresholdChange .. => True
  | _ => False

/-- Proposals and approvals are untouched. -/
structure Unvoted (s s' : State World) : Prop where
  proposal : s'.proposal = s.proposal
  approval : s'.approval = s.approval
  proposalCount : s'.proposalCount = s.proposalCount

/-- The queue of changes is untouched. -/
structure Unqueued (s s' : State World) : Prop where
  change : s'.change = s.change
  changeCount : s'.changeCount = s.changeCount

/-- Both are. -/
structure Framed (s s' : State World) : Prop extends Unvoted s s', Unqueued s s'

/-- **What a call leaves alone.** -/
theorem exec_frame {call : Call} (hinitialized : s.threshold ≠ none)
    (h : exec H env s call = .ok s') :
    (¬ call.Votes → Unvoted s s') ∧ (¬ call.Queues → Unqueued s s') := by
  have hboth : Framed s s' →
      (¬ call.Votes → Unvoted s s') ∧ (¬ call.Queues → Unqueued s s') :=
    fun hframed => ⟨fun _ => hframed.toUnvoted, fun _ => hframed.toUnqueued⟩
  cases call with
  | initializeContract signers threshold =>
      obtain ⟨_, hnone, _⟩ := bind_eq_ok.1 h
      exact absurd (require_eq_ok.1 hnone) hinitialized
  | addSigner caller signer weight =>
      obtain ⟨_, rfl⟩ := addSigner_ok h
      exact hboth ⟨⟨rfl, rfl, rfl⟩, rfl, rfl⟩
  | removeSigner caller signer =>
      obtain ⟨_, rfl⟩ := removeSigner_ok h
      exact hboth ⟨⟨rfl, rfl, rfl⟩, rfl, rfl⟩
  | setThreshold caller threshold =>
      obtain ⟨_, rfl⟩ := setThreshold_ok h
      exact hboth ⟨⟨rfl, rfl, rfl⟩, rfl, rfl⟩
  | finalizeThreshold caller =>
      obtain ⟨_, _, rfl⟩ := finalizeThreshold_ok h
      exact hboth ⟨⟨rfl, rfl, rfl⟩, rfl, rfl⟩
  | setEmergencyLock caller locked =>
      obtain rfl := setEmergencyLock_ok h
      exact hboth ⟨⟨rfl, rfl, rfl⟩, rfl, rfl⟩
  | executeBatch caller nonce calls approvers =>
      obtain ⟨_, _, rfl⟩ := executeBatch_ok h
      exact hboth ⟨⟨rfl, rfl, rfl⟩, rfl, rfl⟩
  | verifyThreshold caller signatories payload =>
      obtain ⟨_, _, rfl⟩ := map_ok h
      exact hboth ⟨⟨rfl, rfl, rfl⟩, rfl, rfl⟩
  | proposeThresholdChange | proposeWeightChange | proposeSignerAddition | proposeSignerRemoval
  | proposeTimelockDelayChange =>
      obtain ⟨id, h⟩ := snd_map_ok h
      obtain ⟨p, _, _, _, _, _, rfl⟩ := proposeChange_ok h
      exact ⟨fun _ => ⟨rfl, rfl, rfl⟩, fun hqueues => absurd trivial hqueues⟩
  | executeThresholdChange =>
      obtain ⟨p, s₁, _, _, _, _, _, happly, rfl⟩ := executeThresholdChange_ok h
      obtain ⟨signers, threshold, delay, rfl⟩ := applyChange_ok happly
      exact ⟨fun _ => ⟨rfl, rfl, rfl⟩, fun hqueues => absurd trivial hqueues⟩
  | cancelThresholdChange =>
      obtain ⟨p, _, _, rfl⟩ := cancelThresholdChange_ok h
      exact ⟨fun _ => ⟨rfl, rfl, rfl⟩, fun hqueues => absurd trivial hqueues⟩
  | propose =>
      obtain ⟨id, h⟩ := snd_map_ok h
      obtain ⟨_, _, _, _, _, _, rfl⟩ := propose_ok h
      exact ⟨fun hvotes => absurd trivial hvotes, fun _ => ⟨rfl, rfl⟩⟩
  | approve =>
      obtain ⟨weight, h⟩ := snd_map_ok h
      obtain ⟨_, _, _, _, _, rfl⟩ := approve_ok h
      exact ⟨fun hvotes => absurd trivial hvotes, fun _ => ⟨rfl, rfl⟩⟩
  | execute =>
      obtain ⟨_, _, _, _, _, _, _, _, _, _, rfl⟩ := execute_ok h
      exact ⟨fun hvotes => absurd trivial hvotes, fun _ => ⟨rfl, rfl⟩⟩

end MultisigContract
end Astroid
