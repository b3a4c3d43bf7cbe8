import Astroid.Escrow.Approvals
import Astroid.Policy.Directory
import Astroid.Treasury.Approvals

/-!
# The whitelists

The treasury, the escrow contract and every policy keep a whitelist as a flag for each
member and a list of them, which Soroban storage could not enumerate otherwise.  In every
state a contract can be in, the list has exactly the flagged members in it.
-/

namespace Astroid

/-- **The lists mirror the flags.** -/
theorem whitelists_mirror :
    (∀ {World : Type} (H : TreasuryContract.TreasuryHost World) s,
      TreasuryContract.Reachable H s → TreasuryContract.Approvals s) ∧
    (∀ {World : Type} (H : EscrowContract.EscrowHost World) s,
      EscrowContract.Reachable H s → EscrowContract.Approvals s) ∧
    (∀ self s, PolicyContract.Reachable self s → ∀ id, (s.records id).Indexed) :=
  ⟨fun _ _ => TreasuryContract.approvals_reachable,
    fun _ _ => EscrowContract.approvals_reachable,
    fun _ _ => PolicyContract.indexed_reachable⟩

/-! ## Three runs -/

/-- The treasury approves a second token and revokes the first. -/
def treasuryEdits : Script TreasuryContract.Call :=
  TreasuryContract.opening ++
    [(signedBy 1 [0], .addApprovedAsset (.account 0) (.contract 8)),
      (signedBy 2 [0], .removeApprovedAsset (.account 0) (.contract 7))]

/-- The escrow contract approves two tokens, revokes the first and approves it again. -/
def escrowEdits : Script EscrowContract.Call :=
  EscrowContract.opening [7, 8] ++
    [(signedBy 1 [0], .revokeToken (.account 0) (.contract 7)),
      (signedBy 2 [0], .approveToken (.account 0) (.contract 7))]

/-- The directory of a policy takes two recipients and loses the first. -/
def policyEdits : Script PolicyContract.Call :=
  [(signedBy 0 [0], PolicyContract.registering 0 "rent"),
    (signedBy 1 [0], .addRecipientToWhitelist (.account 0) "rent" (.account 1)),
    (signedBy 2 [0], .addWhitelist (.account 0) "rent" (.account 2)),
    (signedBy 3 [0], .removeRecipientFromWhitelist (.account 0) "rent" (.account 1))]

/-- What the lists are after them. -/
theorem whitelists_mirror_edits :
    let t := TreasuryContract.play (TreasuryContract.deployed (TreasuryContract.funded 0))
      treasuryEdits
    let e := EscrowContract.play (EscrowContract.deployed (EscrowContract.holding 0)) escrowEdits
    let p := PolicyContract.play PolicyContract.deployed policyEdits
    (t.approvedAssetList = [.contract 8] ∧ TreasuryContract.Approvals t) ∧
      (e.approvedTokenList = [.contract 8, .contract 7] ∧ EscrowContract.Approvals e) ∧
      ((p.records "rent").recipientWhitelistIndex = some [.account 2] ∧
        (p.records "rent").Indexed) := by
  obtain ⟨htreasury, hescrow, hpolicy⟩ := whitelists_mirror
  refine ⟨⟨by decide, ?_⟩, ⟨by decide, ?_⟩, by decide, ?_⟩
  · exact htreasury TreasuryContract.referenceHost _
      (Deployment.reachable_play (TreasuryContract.funded_fresh le_rfl) rfl)
  · exact hescrow EscrowContract.referenceHost _
      (Deployment.reachable_play (EscrowContract.holding_fresh 0) rfl)
  · exact hpolicy _ _ (Deployment.reachable_play PolicyContract.deployed_fresh rfl) "rent"

end Astroid
