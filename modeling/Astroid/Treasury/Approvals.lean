import Astroid.Lib.Directory
import Astroid.Treasury.Effects

/-!
# The list of approved assets

The approved assets are a directory with a counter beside it.  The two entrypoints of the
whitelist write all three records (`exec_approvals`), so list, flags and counter agree in
every state the contract can be in (`approvals_reachable`).
-/

namespace Astroid
namespace TreasuryContract

open Outcome

variable {World : Type} {H : TreasuryHost World} {env : Env H.self} {s s' : State World}

/-- The list has the approved assets in it, each of them once, and as many as are counted. -/
structure Approvals (s : State World) : Prop where
  mirrors : Directory.Mirrors s.approvedAssetList s.approvedAsset
  length_le : s.approvedAssetList.length ≤ maxTreasuryAssets
  count : s.approvedAssetList.length = s.approvedAssetCount

/-- What a call that returned did to the whitelist and to its counter. -/
theorem exec_approvals {call : Call} (hs : Approvals s) (h : exec H env s call = .ok s') :
    Directory.Edit (·.length < maxTreasuryAssets) s.approvedAssetList s.approvedAsset
        s'.approvedAssetList s'.approvedAsset ∧
      s'.approvedAssetList.length = s'.approvedAssetCount := by
  have hother : ¬ call.EditsRegister → Directory.Edit (·.length < maxTreasuryAssets)
        s.approvedAssetList s.approvedAsset s'.approvedAssetList s'.approvedAsset ∧
      s'.approvedAssetList.length = s'.approvedAssetCount := by
    intro hcall
    have hkeeps := exec_registers hcall h
    refine ⟨.kept hkeeps.approvedAssetList hkeeps.approvedAsset, ?_⟩
    rw [hkeeps.approvedAssetList, hkeeps.approvedAssetCount]
    exact hs.count
  have hcount := hs.count
  have hlength := hs.length_le
  cases call with
  | addApprovedAsset caller asset =>
      obtain ⟨hnew, hroom, rfl⟩ := addApprovedAsset_ok h
      refine ⟨.added asset hnew hroom rfl rfl, ?_⟩
      -- the counter is far from wrapping
      show (s.approvedAssetList ++ [asset]).length = (s.approvedAssetCount + 1) % 2 ^ 32
      unfold maxTreasuryAssets at hlength
      rw [List.length_append, List.length_singleton]
      omega
  | removeApprovedAsset caller asset =>
      obtain ⟨hlisted, rfl⟩ := removeApprovedAsset_ok h
      refine ⟨.removed asset hlisted rfl rfl, ?_⟩
      show (s.approvedAssetList.erase asset).length = s.approvedAssetCount - 1
      rw [hs.mirrors.length_erase hlisted, hcount]
  | initMilestoneDisbursement =>
      obtain ⟨_, h⟩ := snd_map_ok h
      obtain ⟨_, _, _, _, rfl⟩ := initMilestoneDisbursement_ok h
      exact ⟨.kept rfl rfl, hcount⟩
  | releaseNextMilestone =>
      obtain ⟨_, _, _, _, _, _, _, _, _, _, _, _, _, _, hdebit, hpay, rfl⟩ :=
        releaseNextMilestone_steps h
      obtain rfl := debit_ok hdebit
      obtain ⟨_, _, _, rfl⟩ := payOut_ok hpay
      exact ⟨.kept rfl rfl, hcount⟩
  | _ => exact hother not_false

theorem Fresh.approvals (h : Fresh H s) : Approvals s := by
  refine ⟨?_, ?_, ?_⟩
  · rw [h.approvedAssetList]
    exact Directory.mirrors_nil h.approvedAsset
  · rw [h.approvedAssetList]
    exact Nat.zero_le _
  · rw [h.approvedAssetList, h.approvedAssetCount]
    rfl

/-- **List, flags and counter agree** in every state the treasury can be in. -/
theorem approvals_reachable (h : Reachable H s) : Approvals s := by
  refine Machine.Reachable.invariant (M := machine H) (P := Approvals) ?_ ?_ h
  · intro s hfresh
    exact hfresh.approvals
  · intro i s s' hs hstep
    cases i with
    | invoke env call =>
        obtain ⟨hedit, hcount⟩ := exec_approvals hs hstep
        exact ⟨hs.mirrors.edit hedit, hedit.length_le hs.length_le, hcount⟩
    | outside time w =>
        obtain ⟨_, rfl⟩ := hstep
        exact ⟨hs.mirrors, hs.length_le, hs.count⟩

end TreasuryContract
end Astroid
