import Astroid.Wallet.Effects

/-!
# The wallet's policy gate

A spend asks the policy that is wired, or, once a registry and an organization are
wired too, the policy module the registry names.  That a policy decided over a
spend is said twice: on the way to the token transfer some policy was asked about
exactly this payment, and had every policy refused it, the spend would have failed
(`Checked`).  A registry that names no live policy module leaves the spend
ungated, whatever policy is wired; in every other case the gate is closed
(`policy_gate_closed`).
-/

namespace Astroid
namespace WalletContract

open Outcome

variable {World : Type} {H : WalletHost World} {env : Env H.self} {s s' : State World}
  {id : ℕ} {payee asset caller : Address} {amount : ℤ}

/-! ## Approval -/

/-- The same host under policies that refuse one payment. -/
def WalletHost.refusing (H : WalletHost World) (asset recipient : Address) (amount : ℤ) :
    WalletHost World :=
  { H with
    checkTransfer := fun env w policy policyId a r x =>
      if policyId = "active" ∧ a = asset ∧ r = recipient ∧ x = amount then none
      else H.checkTransfer env w policy policyId a r x }

/-- Between `w` and `w'` a policy was asked about the payment and did not refuse. -/
def Asked (H : WalletHost World) (env : Env H.self) (asset recipient : Address) (amount : ℤ)
    (w w' : World) : Prop :=
  ∃ policy w₁ w₂, Consults H env w w₁ ∧
    H.checkTransfer env w₁ policy "active" asset recipient amount = some w₂ ∧
    Consults H env w₂ w'

/-- A policy decided over the spend a call made. -/
structure Checked (H : WalletHost World) (env : Env H.self) (s : State World) (call : Call)
    (s' : State World) (asset recipient : Address) (amount : ℤ) : Prop where
  asked : ∃ w, Asked H env asset recipient amount s.world w ∧
    H.transfer w asset H.self recipient amount = .ok s'.world
  decided : ∀ s'', exec (H.refusing asset recipient amount) env s call ≠ .ok s''

/-- The call asks wallet `id` to send `amount` of `asset` to `recipient`. -/
inductive Spends (s : State World) : Call → ℕ → Address → Address → ℤ → Prop
  | transfer {caller recipient asset : Address} {id : ℕ} {amount : ℤ} :
      Spends s (.transfer caller id recipient asset amount) id asset recipient amount
  | withdraw {caller asset : Address} {id : ℕ} {wallet : WalletData} {amount : ℤ} :
      s.wallet id = some wallet →
      Spends s (.withdraw caller id asset amount) id asset wallet.owner amount

/-- Where a registry and an organization are wired, the registry's answer to a lookup has a
policy module that is not deprecated. -/
def ResolvesPolicy (H : WalletHost World) (s : State World) : Prop :=
  ∀ registry org modules, s.registry = some registry → s.org = some org →
    H.getModulesBatch s.world registry org [.policy, .budget] = .ok modules →
    ∃ info, modules[0]? = some (some info) ∧ info.deprecated = false

/-! ## Which policy a spend asks -/

/-- A wired policy and a registry that names a live one: the gate has a policy to ask. -/
theorem resolveGates_some {policy budget : Option Address}
    (h : resolveGates H s = .ok (policy, budget)) (hwired : s.policy ≠ none)
    (hresolves : ResolvesPolicy H s) : policy ≠ none := by
  unfold resolveGates at h
  split at h
  · rename_i registry org hregistry horg
    split at h
    · rename_i modules hlookup
      obtain ⟨info, hinfo, hlive⟩ := hresolves registry org modules hregistry horg hlookup
      simp only [bind_eq_ok, orFail_eq_ok, pure_eq_ok, Prod.mk.injEq] at h
      obtain ⟨found, hfound, _, _, rfl, _⟩ := h
      rw [hinfo, Option.some.injEq] at hfound
      subst hfound
      simp [resolveGates.live, hlive]
    · cases h
    · cases h
  · simp only [Except.ok.injEq, Prod.mk.injEq] at h
    rw [← h.1]
    exact hwired

/-- A registry that names no live policy leaves the gate without one. -/
theorem resolveGates_none {policy budget : Option Address}
    (h : resolveGates H s = .ok (policy, budget)) (hmissing : ¬ ResolvesPolicy H s) :
    policy = none := by
  simp only [ResolvesPolicy, not_forall] at hmissing
  obtain ⟨registry, org, modules, hregistry, horg, hlookup, hnone⟩ := hmissing
  unfold resolveGates at h
  simp only [hregistry, horg, hlookup, bind_eq_ok, orFail_eq_ok, pure_eq_ok, Prod.mk.injEq] at h
  obtain ⟨found, hfound, _, _, rfl, _⟩ := h
  cases found with
  | none => rfl
  | some info =>
      by_cases hlive : info.deprecated = true
      · simp [resolveGates.live, hlive]
      · rw [Bool.not_eq_true] at hlive
        exact absurd ⟨info, hfound, hlive⟩ hnone

/-! ## What a spend under the gate did -/

/-- The gate of a wallet that is not bypassed asks the policy it has. -/
theorem policyGate_asked {policy : Address} (hbypass : s.policyBypass id = false)
    (h : policyGate H env id asset payee amount (some policy) s = .ok s') :
    Asked H env asset payee amount s.world s'.world := by
  simp only [policyGate, if_pos hbypass, requirePolicyCheck, bind_eq_ok, okOr_eq_ok,
    pure_eq_ok] at h
  obtain ⟨w, hcheck, rfl⟩ := h
  exact ⟨policy, s.world, w, .refl, hcheck, .refl⟩

/-- The gates of a spend ask a policy, when there is one to ask. -/
theorem preExecuteChecks_asked {u : Unit} (hwired : s.policy ≠ none)
    (hresolves : ResolvesPolicy H s) (hbypass : s.policyBypass id = false)
    (h : preExecuteChecks H env id asset payee amount caller s = (.ok u, s')) :
    Asked H env asset payee amount s.world s'.world := by
  simp only [preExecuteChecks, Act.bind_ok, Act.read_ok, Act.step_ok] at h
  obtain ⟨⟨policy, budget⟩, _, ⟨hgates, rfl⟩, _, s₁, hpolicy, hbudget⟩ := h
  obtain ⟨policy, rfl⟩ := Option.ne_none_iff_exists'.1 (resolveGates_some hgates hwired hresolves)
  obtain ⟨p, w₁, w₂, hbefore, hasked, hafter⟩ := policyGate_asked hbypass hpolicy
  obtain ⟨w, hconsults, rfl⟩ := budgetGate_ok hbudget
  exact ⟨p, w₁, w₂, hbefore, hasked, hafter.trans hconsults⟩

/-- A host whose policies refuse the payment lets none through. -/
theorem not_asked_refusing {w w' : World} :
    ¬ Asked (H.refusing asset payee amount) env asset payee amount w w' := by
  rintro ⟨policy, w₁, w₂, _, hasked, _⟩
  simp [WalletHost.refusing] at hasked

/-- Without a policy to ask, the gates do not depend on what the policies say. -/
theorem preExecuteChecks_ungated {a r : Address} {x : ℤ} {u : Unit}
    (hmissing : ¬ ResolvesPolicy H s)
    (h : preExecuteChecks H env id asset payee amount caller s = (.ok u, s')) :
    preExecuteChecks (H.refusing a r x) env id asset payee amount caller s = (.ok u, s') := by
  simp only [preExecuteChecks, Act.bind_ok, Act.read_ok, Act.step_ok] at h ⊢
  obtain ⟨⟨policy, budget⟩, _, ⟨hgates, rfl⟩, v, s₁, hpolicy, hbudget⟩ := h
  obtain rfl := resolveGates_none hgates hmissing
  exact ⟨(none, budget), s, ⟨hgates, rfl⟩, v, s₁, hpolicy, hbudget⟩

/-! ## The two entrypoints -/

/-- The state the gates of a spend run in. -/
def State.locked (s : State World) : State World := { s with reentrancyLock := true }

theorem spend_asked {u : Unit} (hwired : s.policy ≠ none) (hresolves : ResolvesPolicy H s)
    (hbypass : s.policyBypass id = false)
    (h : spend H env caller id payee asset amount s = (.ok u, s')) :
    ∃ w, Asked H env asset payee amount s.world w ∧
      H.transfer w asset H.self payee amount = .ok s'.world := by
  simp only [spend, unlockOnError, Act.bind_ok, Act.onError_ok, Act.step_ok, Act.read_ok,
    Except.ok.injEq] at h
  obtain ⟨_, _, hlock, _, _, hchecks, _, _, hvelocity, _, _, hrate, _, _, ⟨_, rfl⟩, _, _, hdebit,
    _, _, hsafe, rfl⟩ := h
  obtain ⟨_, rfl⟩ := lock_ok hlock
  have hasked := preExecuteChecks_asked (s := s.locked) hwired hresolves hbypass hchecks
  obtain ⟨w, _, rfl⟩ := preExecuteChecks_ok hchecks
  obtain ⟨velocityUsage, rfl⟩ := enforceVelocity_ok hvelocity
  obtain ⟨rateLimitUsage, rfl⟩ := enforceRateLimit_ok hrate
  obtain ⟨_, rfl⟩ := debit_ok hdebit
  obtain ⟨w', _, htransfer, rfl⟩ := safeTransferOut_ok hsafe
  exact ⟨w, hasked, htransfer⟩

theorem spend_ungated {a r : Address} {x : ℤ} {u : Unit} (hmissing : ¬ ResolvesPolicy H s)
    (h : spend H env caller id payee asset amount s = (.ok u, s')) :
    spend (H.refusing a r x) env caller id payee asset amount s = (.ok u, s') := by
  simp only [spend, unlockOnError, Act.bind_ok, Act.onError_ok, Act.step_ok, Act.read_ok] at h ⊢
  obtain ⟨u₁, s₁, hlock, u₂, s₂, hchecks, hrest⟩ := h
  obtain ⟨_, rfl⟩ := lock_ok hlock
  exact ⟨u₁, _, hlock, u₂, s₂, preExecuteChecks_ungated (s := s.locked) hmissing hchecks, hrest⟩

theorem transfer_ungated {a r : Address} {x : ℤ} {u : Unit} (hmissing : ¬ ResolvesPolicy H s)
    (h : transfer H env caller id payee asset amount s = (.ok u, s')) :
    transfer (H.refusing a r x) env caller id payee asset amount s = (.ok u, s') := by
  simp only [transfer, Act.bind_ok, Act.read_ok] at h ⊢
  obtain ⟨u₁, _, ⟨hpositive, rfl⟩, u₂, _, ⟨hrunning, rfl⟩, wallet, _, ⟨hrole, rfl⟩, u₃, _,
    ⟨hactive, rfl⟩, u₄, _, ⟨hrecipient, rfl⟩, hspend⟩ := h
  exact ⟨u₁, s, ⟨hpositive, rfl⟩, u₂, s, ⟨hrunning, rfl⟩, wallet, s, ⟨hrole, rfl⟩, u₃, s,
    ⟨hactive, rfl⟩, u₄, s, ⟨hrecipient, rfl⟩, spend_ungated hmissing hspend⟩

theorem withdraw_ungated {a r : Address} {x : ℤ} {u : Unit} (hmissing : ¬ ResolvesPolicy H s)
    (h : withdraw H env caller id asset amount s = (.ok u, s')) :
    withdraw (H.refusing a r x) env caller id asset amount s = (.ok u, s') := by
  simp only [withdraw, Act.bind_ok, Act.read_ok] at h ⊢
  obtain ⟨u₁, _, ⟨hpositive, rfl⟩, u₂, _, ⟨hrunning, rfl⟩, wallet, _, ⟨hrole, rfl⟩, u₃, _,
    ⟨hactive, rfl⟩, hspend⟩ := h
  exact ⟨u₁, s, ⟨hpositive, rfl⟩, u₂, s, ⟨hrunning, rfl⟩, wallet, s, ⟨hrole, rfl⟩, u₃, s,
    ⟨hactive, rfl⟩, spend_ungated hmissing hspend⟩

/-- A call that spends ends in `spend`. -/
theorem spend_of_spends {call : Call} (hspends : Spends s call id asset payee amount)
    (h : exec H env s call = .ok s') :
    ∃ caller u, spend H env caller id payee asset amount s = (.ok u, s') := by
  cases hspends with
  | @transfer caller =>
      obtain ⟨u, h⟩ := snd_map_ok h
      simp only [Act.commit_eq_ok, transfer, Act.bind_ok, Act.read_ok] at h
      obtain ⟨_, _, ⟨_, rfl⟩, _, _, ⟨_, rfl⟩, _, _, ⟨_, rfl⟩, _, _, ⟨_, rfl⟩, _, _, ⟨_, rfl⟩, h⟩ := h
      exact ⟨caller, u, h⟩
  | @withdraw caller _ _ wallet _ hwallet =>
      obtain ⟨u, h⟩ := snd_map_ok h
      simp only [Act.commit_eq_ok, withdraw, Act.bind_ok, Act.read_ok] at h
      obtain ⟨_, _, ⟨_, rfl⟩, _, _, ⟨_, rfl⟩, wallet', _, ⟨hrole, rfl⟩, _, _, ⟨_, rfl⟩, h⟩ := h
      -- the role check loads the same record
      simp only [requireWalletRole, State.loadWallet, bind_eq_ok, okOr_eq_ok, pure_eq_ok,
        hwallet, Option.some.injEq] at hrole
      obtain ⟨_, _, _, rfl, _, _, rfl⟩ := hrole
      exact ⟨caller, u, h⟩

theorem exec_ungated {a r : Address} {x : ℤ} {call : Call} (hmissing : ¬ ResolvesPolicy H s)
    (hspends : Spends s call id asset payee amount) (h : exec H env s call = .ok s') :
    exec (H.refusing a r x) env s call = .ok s' := by
  cases hspends with
  | transfer =>
      obtain ⟨u, h⟩ := snd_map_ok h
      have hungated := transfer_ungated (a := a) (r := r) (x := x) hmissing (Act.commit_eq_ok.1 h)
      show Prod.snd <$> Act.commit _ s = _
      rw [Act.commit_eq_ok.2 hungated]
      rfl
  | withdraw =>
      obtain ⟨u, h⟩ := snd_map_ok h
      have hungated := withdraw_ungated (a := a) (r := r) (x := x) hmissing (Act.commit_eq_ok.1 h)
      show Prod.snd <$> Act.commit _ s = _
      rw [Act.commit_eq_ok.2 hungated]
      rfl

/-- Where the gate has a policy to ask, a spend it refuses fails. -/
theorem not_exec_refusing {call : Call} (hwired : s.policy ≠ none)
    (hresolves : ResolvesPolicy H s) (hbypass : s.policyBypass id = false)
    (hspends : Spends s call id asset payee amount) :
    exec (H.refusing asset payee amount) env s call ≠ .ok s' := by
  intro h
  have hresolves' : ResolvesPolicy (H.refusing asset payee amount) s := hresolves
  have hspend := spend_of_spends (H := H.refusing asset payee amount) hspends h
  obtain ⟨caller, u, hspend⟩ := hspend
  obtain ⟨w, hasked, _⟩ := spend_asked hwired hresolves' hbypass hspend
  exact not_asked_refusing hasked

/-- **The policy gate.**  In every reachable state with a wired policy, a policy decided over
a successful spend of a wallet that is not bypassed exactly when the registry, where
one is wired with an organization, names a live policy module. -/
theorem policy_gate_closed (H : WalletHost World) :
    ∀ s s' (env : Env H.self) call id asset recipient amount, (machine H).Reachable s →
      s.policy ≠ none → s.policyBypass id = false → Spends s call id asset recipient amount →
      exec H env s call = .ok s' →
      (Checked H env s call s' asset recipient amount ↔ ResolvesPolicy H s) := by
  intro s s' env call id asset recipient amount _ hwired hbypass hspends h
  constructor
  · intro hchecked
    by_contra hmissing
    exact hchecked.decided s' (exec_ungated hmissing hspends h)
  · intro hresolves
    obtain ⟨caller, u, hspend⟩ := spend_of_spends hspends h
    exact ⟨spend_asked hwired hresolves hbypass hspend,
      fun s'' => not_exec_refusing hwired hresolves hbypass hspends⟩

/-! ## Two runs -/

/-- After the opening, the policy `contract 9` is wired. -/
def wirePolicy : Script Call :=
  opening ++ [(signedBy 1 [3], .setPolicy (.account 3) (.contract 9))]

/-- Then the registry `contract 11` is wired, with an organization. -/
def wireRegistry : Script Call :=
  wirePolicy ++
    [(signedBy 2 [3], .setRegistry (.account 3) (.contract 11)),
      (signedBy 2 [3], .setOrg (.account 3) "org")]

/-- A transfer of 60 under the wired policy is decided by it. -/
theorem policy_gate_closed_direct :
    let s := play (deployed funded) wirePolicy
    let call : Call := .transfer (.account 1) 1 (.account 2) (.contract 7) 60
    Checked referenceHost (signedBy 2 [1]) s call (play s [(signedBy 2 [1], call)]) (.contract 7)
      (.account 2) 60 := by
  have hreach : (machine referenceHost).Reachable (play (deployed funded) wirePolicy) :=
    Deployment.reachable_play funded_fresh rfl
  refine (policy_gate_closed referenceHost _ _ _ _ 1 _ _ _ hreach (by rintro ⟨⟩) rfl .transfer
    rfl).2 ?_
  rintro registry org modules ⟨⟩

/-- A registry that knows no module, over policies that refuse everything. -/
def emptyRegistryHost : WalletHost Ledger :=
  { referenceHost with
    getModulesBatch := fun _ _ _ ids => .ok (ids.map fun _ => none)
    checkTransfer := fun _ _ _ _ _ _ _ => none }

/-- **An empty registry opens the gate.**  The transfer of 60 goes through although the
wired policy refuses everything. -/
theorem not_policy_gate_closed :
    ¬ ∀ s s' (env : Env emptyRegistryHost.self) call id asset recipient amount,
      (machine emptyRegistryHost).Reachable s → s.policy ≠ none → s.policyBypass id = false →
      Spends s call id asset recipient amount → exec emptyRegistryHost env s call = .ok s' →
      Checked emptyRegistryHost env s call s' asset recipient amount := by
  intro h
  have hfresh : Fresh emptyRegistryHost (deployed funded) := { funded_fresh with }
  let s := (deployment emptyRegistryHost).play (deployed funded) wireRegistry
  have hplays : (deployment emptyRegistryHost).plays (deployed funded) 0 wireRegistry = true := by
    decide
  have hreach : (machine emptyRegistryHost).Reachable s := Deployment.reachable_play hfresh hplays
  have hwired : s.policy ≠ none := by rintro ⟨⟩
  have hstep := Deployment.step_after (D := deployment emptyRegistryHost) (s := s)
    (c := (signedBy 3 [1], .transfer (.account 1) 1 (.account 2) (.contract 7) 60))
    (by decide)
  have hchecked := h s _ _ _ 1 (.contract 7) (.account 2) 60 hreach hwired rfl .transfer hstep
  obtain ⟨_, ⟨_, _, _, _, hasked, _⟩, _⟩ := hchecked.asked
  cases hasked

end WalletContract
end Astroid
