import Astroid.Lib.Register
import Astroid.Registry.Effects

/-!
# Approved code

The registry answers whether code is approved for a kind of module.  An approval is added by
`add_approved_wasm` and by the commitment of a proposal, withdrawn by `remove_approved_wasm`,
and touched by nothing else (`exec_approvals`): the registry always answers with the last
decision of its administrators (`approved_last`).
-/

namespace Astroid
namespace RegistryContract

open Outcome Keyed Machine

variable {here : Address} {env : Env here} {s s' : State} {call : Call} {kind : ModuleKind}
  {wasmHash : WasmHash} {tr : List (Entry State (Inputs here))} {t : ℕ}

/-- What a call decides about the code of a kind. -/
def Call.decides (s : State) (kind : ModuleKind) (wasmHash : WasmHash) : Call → Option Bool
  | .addApprovedWasm _ kind' wasmHash' =>
      if kind' = kind ∧ wasmHash' = wasmHash then some true else none
  | .removeApprovedWasm _ kind' wasmHash' =>
      if kind' = kind ∧ wasmHash' = wasmHash then some false else none
  | .commitUpgrade _ kind' =>
      if kind' = kind ∧ (s.upgradeProposal kind').map (·.wasmHash) = some wasmHash then some true
      else none
  | _ => none

/-- What an entry of a run decided. -/
def decides (kind : ModuleKind) (wasmHash : WasmHash) (e : Entry State (Inputs here)) :
    Option Bool :=
  match e.input with
  | .invoke _ call => call.decides e.pre kind wasmHash
  | .outside _ _ => none

/-- An administrator made the call of this entry. -/
def Administered (e : Entry State (Inputs here)) : Prop :=
  ∃ (env : Env here) (call : Call) (caller : Address),
    e.input = .invoke env call ∧ Administers env e.pre caller

/-- The calls that edit the approvals. -/
def Call.Approves : Call → Prop
  | .addApprovedWasm _ _ _ | .removeApprovedWasm _ _ _ | .commitUpgrade _ _ => True
  | _ => False

/-- The approvals are as they were. -/
def KeepsApprovals (s s' : State) : Prop := s'.approvedWasm = s.approvedWasm

/-- No other call touches an approval. -/
theorem exec_keepsApprovals (hother : ¬ call.Approves) (h : exec env s call = .ok s') :
    KeepsApprovals s s' := by
  cases call with
  | addApprovedWasm | removeApprovedWasm | commitUpgrade => exact absurd trivial hother
  | initializeContract | setAdmin | setMultisig =>
      exact of_bind_ok h fun _ h => of_pure_ok h rfl
  | removeMultisig => exact of_bind_ok h fun _ h => of_bind_ok h fun _ h => of_pure_ok h rfl
  | addAdmin | freeze | unfreeze | setUpgradeAuthority | deprecateModule | reactivateModule
  | registerModule | revokeRole =>
      exact of_bind_ok h fun _ h => of_bind_ok h fun _ h => of_bind_ok h fun _ h => of_pure_ok h rfl
  | removeAdmin caller admin =>
      refine of_bind_ok h fun _ h => of_bind_ok h fun _ h => of_bind_ok h fun _ h => ?_
      split at h
      · exact of_bind_ok h fun _ h => of_pure_ok h rfl
      · exact of_pure_ok h rfl
  | registerOrg | setOrgOwner | removeModule | grantRole | rejectUpgrade =>
      exact of_bind_ok h fun _ h => of_bind_ok h fun _ h => of_bind_ok h fun _ h =>
        of_bind_ok h fun _ h => of_pure_ok h rfl
  | registerVersion =>
      obtain ⟨_, _, _, _, _, rfl⟩ := registerVersion_ok h
      rfl
  | proposeUpgrade =>
      simp only [exec, proposeUpgrade, bind_eq_ok, pure_eq_ok] at h
      obtain ⟨_, _, _, _, _, _, _, _, _, _, _, _, _, _, _, _, _, _, _, _, rfl⟩ := h
      rfl
  | upgradeModule _ org kind version | registerModuleVersion _ org kind version =>
      obtain ⟨_, _, _, _, rfl⟩ := moves_ok rfl h
      rfl
  | upgrade =>
      obtain ⟨_, _, _, _, rfl⟩ := upgrade_ok h
      rfl
  | lookup | verifyOwner | getModulesBatch | getModuleVersion | getVersion | getVersionWasm
  | getLatest | getVersionsBatch | verifyVersion | validateUpgrade | validateRegistryUpgrade =>
      obtain ⟨_, _, rfl⟩ := map_ok h
      rfl

theorem decides_of_other (hother : ¬ call.Approves) : call.decides s kind wasmHash = none := by
  cases call with
  | addApprovedWasm | removeApprovedWasm | commitUpgrade => exact absurd trivial hother
  | _ => rfl

/-- An edit of one approval. -/
theorem isWasmApproved_write {kind' : ModuleKind} {wasmHash' : WasmHash} {approval : Option Bool}
    (hs' : s'.approvedWasm = writeAt s.approvedWasm kind' wasmHash' approval) :
    s'.isWasmApproved kind wasmHash = if kind' = kind ∧ wasmHash' = wasmHash then approval.getD false
      else s.isWasmApproved kind wasmHash := by
  unfold State.isWasmApproved
  rw [hs']
  split
  · rename_i hsame
    obtain ⟨rfl, rfl⟩ := hsame
    rw [writeAt_self]
  · rename_i hother
    rw [writeAt_ne]
    rintro ⟨rfl, rfl⟩
    exact hother ⟨rfl, rfl⟩

/-- **What a call did to the approvals**, and that an administrator made it if it decided. -/
theorem exec_approvals (h : exec env s call = .ok s') :
    s'.isWasmApproved kind wasmHash
        = (call.decides s kind wasmHash).getD (s.isWasmApproved kind wasmHash) ∧
      (call.decides s kind wasmHash ≠ none → ∃ caller, Administers env s caller) := by
  by_cases hother : call.Approves
  · cases call with
    | addApprovedWasm caller kind' wasmHash' =>
        simp only [exec, addApprovedWasm, bind_eq_ok, requireAdmin_eq_ok, pure_eq_ok] at h
        obtain ⟨_, hadmin, _, _, _, _, rfl⟩ := h
        refine ⟨?_, fun _ => ⟨caller, hadmin⟩⟩
        rw [isWasmApproved_write rfl, Call.decides]
        split <;> rfl
    | removeApprovedWasm caller kind' wasmHash' =>
        simp only [exec, removeApprovedWasm, bind_eq_ok, requireAdmin_eq_ok, pure_eq_ok] at h
        obtain ⟨_, hadmin, _, _, rfl⟩ := h
        refine ⟨?_, fun _ => ⟨caller, hadmin⟩⟩
        rw [isWasmApproved_write rfl, Call.decides]
        split <;> rfl
    | commitUpgrade caller kind' =>
        obtain ⟨_, h⟩ := snd_map_ok h
        obtain ⟨proposal, log, _, hadmin, hproposal, _, rfl⟩ := commitUpgrade_ok h
        refine ⟨?_, fun _ => ⟨caller, hadmin⟩⟩
        rw [isWasmApproved_write rfl, Call.decides]
        simp only [hproposal, Option.map_some, Option.some.injEq]
        split <;> rfl
    | _ => exact hother.elim
  · refine ⟨?_, fun hdecides => absurd (decides_of_other hother) hdecides⟩
    rw [decides_of_other hother, State.isWasmApproved, exec_keepsApprovals hother h]
    rfl

/-- **The registry answers with the last decision.**  In every run, the registry approves code
for a kind of module just if the last entry that decided about it approved it, and an
administrator made every entry that decides. -/
theorem approved_last (hpath : (machine here).Path anyInput tr s t) (kind : ModuleKind)
    (wasmHash : WasmHash) :
    s.isWasmApproved kind wasmHash = (lastWrite (decides kind wasmHash) tr).getD false ∧
      ∀ e ∈ tr, decides kind wasmHash e ≠ none → Administered e := by
  refine ⟨?_, ?_⟩
  · have hfresh : ∀ s, Fresh s → s.isWasmApproved kind wasmHash = false := by
      intro s hfresh
      rw [State.isWasmApproved, hfresh.approvedWasm]
      rfl
    refine hpath.register hfresh ?_
    intro tr s t i s' _ _ hstep
    cases i with
    | invoke env call => exact (exec_approvals hstep).1
    | outside time uploaded =>
        obtain rfl : s' = { s with uploaded := uploaded } := hstep
        rfl
  · intro e he hdecides
    have hstep := hpath.stepped he
    obtain ⟨pre, input, post⟩ := e
    cases input with
    | invoke env call =>
        obtain ⟨caller, hadmin⟩ := (exec_approvals hstep).2 hdecides
        exact ⟨env, call, caller, rfl, hadmin⟩
    | outside time uploaded => exact absurd rfl hdecides

end RegistryContract
end Astroid
