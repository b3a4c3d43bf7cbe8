import Astroid.Lib.Directory
import Astroid.Escrow.Effects

/-!
# The list of approved tokens

`approve_token` and `revoke_token` are the only calls that write the token whitelist, and
each of them writes the flag and the list (`exec_approvals`).
-/

namespace Astroid
namespace EscrowContract

open Outcome

variable {World : Type} {H : EscrowHost World} {env : Env H.self} {s s' : State World}

/-- The list has the approved tokens in it, each of them once. -/
structure Approvals (s : State World) : Prop where
  mirrors : Directory.Mirrors s.approvedTokenList s.approvedToken
  length_le : s.approvedTokenList.length ≤ maxEscrowTokens

/-- What a call that returned did to the token whitelist. -/
theorem exec_approvals {call : Call} (h : exec H env s call = .ok s') :
    Directory.Edit (·.length < maxEscrowTokens) s.approvedTokenList s.approvedToken
      s'.approvedTokenList s'.approvedToken := by
  have hother : ¬ call.EditsRegister → Directory.Edit (·.length < maxEscrowTokens)
      s.approvedTokenList s.approvedToken s'.approvedTokenList s'.approvedToken := by
    intro hcall
    have hkeeps := exec_registers hcall h
    exact .kept hkeeps.approvedTokenList hkeeps.approvedToken
  cases call with
  | approveToken caller token =>
      obtain ⟨hnew, hroom, rfl⟩ := approveToken_ok h
      exact .added token hnew hroom rfl rfl
  | revokeToken caller token =>
      obtain ⟨hlisted, rfl⟩ := revokeToken_ok h
      exact .removed token hlisted rfl rfl
  | createWithReleaseCondition config =>
      obtain ⟨_, h⟩ := snd_map_ok h
      obtain ⟨s₁, hcreate, hs'⟩ := createWithReleaseCondition_ok h
      have hkeeps := openFunded_registers (createWithRefundWindow_ok hcreate).2.2.2.2
      rcases hs' with rfl | rfl
      · exact .kept hkeeps.approvedTokenList hkeeps.approvedToken
      · exact .kept hkeeps.approvedTokenList hkeeps.approvedToken
  | approveRelease caller id =>
      obtain ⟨_, h⟩ := snd_map_ok h
      simp only [approveRelease, bind_eq_ok, pure_eq_ok, Prod.mk.injEq] at h
      obtain ⟨_, _, _, _, _, _, _, _, _, _, _, _, _, rfl⟩ := h
      exact .kept rfl rfl
  | _ => exact hother not_false

theorem Fresh.approvals (h : Fresh H s) : Approvals s := by
  constructor
  · rw [h.approvedTokenList]
    exact Directory.mirrors_nil h.approvedToken
  · rw [h.approvedTokenList]
    exact Nat.zero_le _

/-- **List and flags agree** in every state the contract can be in. -/
theorem approvals_reachable (h : Reachable H s) : Approvals s := by
  refine Machine.Reachable.invariant (M := machine H) (P := Approvals) ?_ ?_ h
  · intro s hfresh
    exact hfresh.approvals
  · intro i s s' hs hstep
    cases i with
    | invoke env call =>
        have hedit := exec_approvals hstep
        exact ⟨hs.mirrors.edit hedit, hedit.length_le hs.length_le⟩
    | outside time w =>
        obtain ⟨_, rfl⟩ := hstep
        exact ⟨hs.mirrors, hs.length_le⟩

end EscrowContract
end Astroid
