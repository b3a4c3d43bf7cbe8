import Astroid.Budget.Gate
import Astroid.Wallet.Effects

/-!
# What a wallet draws on an envelope

A spend consumes its amount of the envelope of its asset, or else of the default one, and a
batch consumes the amount of every action that names an envelope, both before any token
moves (`exec_draws`).  All else a wallet does leaves the budget contract alone, as long as
the sub-calls of its batches do.
-/

namespace Astroid
namespace WalletContract

open Outcome

variable {World : Type} {H : WalletHost World} {env : Env H.self} {s s' : State World}
  {budget asset caller : Address} {id : String} {amount : ℤ}
  {view : World → BudgetContract.State}

/-! ## The budget contract -/

/-- At `budget` there is a budget contract, which stores what `view` shows and is reached
through `consume` alone. -/
structure WalletHost.Budgeted (H : WalletHost World) (budget : Address)
    (view : World → BudgetContract.State) : Prop where
  consume : ∀ {env w caller id amount w' remaining},
    H.consume env w budget caller id amount = .ok (w', remaining) →
    BudgetContract.Consumes budget id env.timestamp.toNat amount (view w) (view w')
  others : ∀ {env w other caller id amount w' remaining}, other ≠ budget →
    H.consume env w other caller id amount = .ok (w', remaining) → view w' = view w
  checkTransfer : ∀ {env w policy id asset payee amount w'},
    H.checkTransfer env w policy id asset payee amount = some w' → view w' = view w
  transfer : ∀ {w asset src dst amount w'}, H.transfer w asset src dst amount = .ok w' →
    view w' = view w

/-- The call draws at least `amount` on the envelope `id`. -/
def Draws (budget : Address) (id : String) (view : World → BudgetContract.State)
    (env : Env H.self) (amount : ℤ) (w w' : World) : Prop :=
  BudgetContract.Draws budget id env.timestamp.toNat amount (view w) (view w')

theorem draws_of_eq {w w' : World} (h : view w' = view w) :
    Draws budget id view env 0 w w' := by
  unfold Draws
  rw [h]
  exact .refl

/-- The sub-calls of a call, which only a batch makes, neither reconfigure the envelope nor
release into it. -/
def LeavesEnvelope (H : WalletHost World) (budget : Address) (id : String)
    (view : World → BudgetContract.State) (env : Env H.self) : Call → Prop
  | .batchExecuteValidated _ _ actions => ∀ action ∈ actions, ∀ w w',
      H.invoke env w action.call = .ok w' → Draws budget id view env 0 w w'
  | _ => True

/-- The budget contract that is wired. -/
def wiredBudget (H : WalletHost World) (s : State World) : Option Address :=
  match resolveGates H s with
  | .ok gates => gates.2
  | .error _ => none

/-- What an action of a batch puts to the envelope `id`. -/
def BatchAction.drawn (gate : Option Address) (budget : Address) (id : String)
    (action : BatchAction) : ℤ :=
  if gate = some budget ∧ action.budgetId = id ∧ action.budgetId ≠ "" then action.amount else 0

/-- What a call puts to the envelope `id`. -/
def drawn (H : WalletHost World) (budget : Address) (id : String) (s : State World) : Call → ℤ
  | .transfer _ _ _ asset amount | .withdraw _ _ asset amount =>
      if wiredBudget H s = some budget ∧ budgetIdFor s asset = some id then amount else 0
  | .batchExecuteValidated _ _ actions =>
      (actions.map (BatchAction.drawn (wiredBudget H s) budget id)).sum
  | _ => 0

/-- What `resolve_gates` answers, a batch takes: without a registry it is the wired one. -/
theorem wiredBudget_of_batch {policy gate : Option Address}
    (hgates : resolveGates H s = .ok (policy, gate)) :
    (if s.registry = none then (s.policy, s.budget) else (policy, gate)).2 = wiredBudget H s := by
  unfold wiredBudget
  rw [hgates]
  split
  · rename_i hnone
    simp only [resolveGates, hnone, Except.ok.injEq, Prod.mk.injEq] at hgates
    exact hgates.2
  · rfl

theorem Invokes.leaves {actions : List BatchAction} {w w' : World}
    (h : Invokes H env actions w w')
    (hleaves : ∀ action ∈ actions, ∀ w w', H.invoke env w action.call = .ok w' →
      Draws budget id view env 0 w w') : Draws budget id view env 0 w w' := by
  induction h with
  | nil => exact draws_of_eq rfl
  | cons hinvoke _ ih =>
      rw [List.forall_mem_cons] at hleaves
      have hdraws := BudgetContract.Draws.trans (hleaves.1 _ _ hinvoke) (ih hleaves.2)
      rw [add_zero] at hdraws
      exact hdraws

/-! ## The gates -/

section Gates

variable (id) (hx : H.Budgeted budget view)
include hx

theorem tryConsume_draws {gate : Address} {id' : String} {remaining : ℤ}
    (h : tryConsume H env gate id' caller amount s = .ok (remaining, s')) :
    Draws budget id view env (if gate = budget ∧ id' = id then amount else 0) s.world
      s'.world := by
  unfold tryConsume at h
  split at h
  · rename_i w rest hconsume
    cases h
    by_cases hgate : gate = budget
    · subst hgate
      have hdraws : BudgetContract.Draws gate id env.timestamp.toNat (if id' = id then amount else 0)
          (view s.world) (view w) := (hx.consume hconsume).draws
      simp only [true_and]
      exact hdraws
    · rw [if_neg fun hc => hgate hc.1]
      exact draws_of_eq (hx.others hgate hconsume)
  · cases h
  · cases h

theorem budgetGate_draws {gate : Option Address}
    (h : budgetGate H env asset caller amount gate s = .ok s') :
    Draws budget id view env
      (if gate = some budget ∧ budgetIdFor s asset = some id then amount else 0) s.world
      s'.world := by
  cases gate with
  | none =>
      cases h
      rw [if_neg (by simp)]
      exact draws_of_eq rfl
  | some gate =>
      cases hid : budgetIdFor s asset with
      | none =>
          simp only [budgetGate, hid, Except.ok.injEq] at h
          subst h
          rw [if_neg (by simp)]
          exact draws_of_eq rfl
      | some id' =>
          simp only [budgetGate, hid, consumeBudget, bind_eq_ok, pure_eq_ok] at h
          obtain ⟨⟨remaining, s₁⟩, hconsume, rfl⟩ := h
          simp only [Option.some.injEq]
          exact tryConsume_draws id hx hconsume

theorem requirePolicyCheck_view {policy recipient : Address} {policyId : String}
    (h : requirePolicyCheck H env policy policyId asset recipient amount s = .ok s') :
    ∃ w, view w = view s.world ∧ s' = { s with world := w } := by
  simp only [requirePolicyCheck, bind_eq_ok, okOr_eq_ok, pure_eq_ok] at h
  obtain ⟨w, hcheck, rfl⟩ := h
  exact ⟨w, hx.checkTransfer hcheck, rfl⟩

theorem policyGate_view {walletId : ℕ} {recipient : Address} {policy : Option Address}
    (h : policyGate H env walletId asset recipient amount policy s = .ok s') :
    ∃ w, view w = view s.world ∧ s' = { s with world := w } := by
  unfold policyGate at h
  split at h
  · split at h
    · exact requirePolicyCheck_view hx h
    · cases h
      exact ⟨_, rfl, rfl⟩
  · cases h
    exact ⟨_, rfl, rfl⟩

/-- The gates of a spend consume its amount of the envelope of the asset. -/
theorem preExecuteChecks_draws {walletId : ℕ} {recipient : Address} {u : Unit}
    (h : preExecuteChecks H env walletId asset recipient amount caller s = (.ok u, s')) :
    Draws budget id view env
      (if wiredBudget H s = some budget ∧ budgetIdFor s asset = some id then amount else 0) s.world
      s'.world := by
  simp only [preExecuteChecks, Act.bind_ok, Act.read_ok, Act.step_ok] at h
  obtain ⟨⟨policy, gate⟩, _, ⟨hgates, rfl⟩, _, s₁, hpolicy, hbudget⟩ := h
  obtain ⟨w, hview, rfl⟩ := policyGate_view hx hpolicy
  have hwired : wiredBudget H s = gate := by
    unfold wiredBudget
    rw [hgates]
  have hdraws := budgetGate_draws id hx hbudget
  rw [hwired]
  unfold Draws at hdraws ⊢
  rw [← hview]
  exact hdraws

/-- The gate of an action consumes its amount of the envelope it names. -/
theorem consumeActionBudget_draws {gate : Option Address} {remaining remaining' : ℤ}
    {action : BatchAction}
    (h : consumeActionBudget H env gate caller remaining action s = (.ok remaining', s')) :
    Draws budget id view env (action.drawn gate budget id) s.world s'.world := by
  unfold consumeActionBudget at h
  split at h
  · rename_i hskipped
    rw [Act.pure_ok] at h
    obtain ⟨_, rfl⟩ := h
    rw [BatchAction.drawn, if_neg (by simp [hskipped])]
    exact draws_of_eq rfl
  · rename_i hnamed
    simp only [Act.bind_ok, Act.read_ok, Act.returning_ok, okOr_eq_ok] at h
    obtain ⟨gate', _, ⟨rfl, rfl⟩, hconsume⟩ := h
    have hdraws := tryConsume_draws id hx hconsume
    simpa [BatchAction.drawn, hnamed] using hdraws

theorem validateAction_draws {walletId : ℕ} {policy gate : Option Address}
    {totals totals' : BatchTotals} {action : BatchAction}
    (h : validateAction H env walletId caller policy gate totals action s = (.ok totals', s')) :
    Draws budget id view env (action.drawn gate budget id) s.world s'.world := by
  simp only [validateAction, Act.bind_ok, Act.read_ok, Act.pure_ok] at h
  obtain ⟨_, _, ⟨_, rfl⟩, _, _, ⟨_, rfl⟩, _, s₁, hpolicy, _, _, ⟨_, rfl⟩, _, _, hbudget, _, rfl⟩ := h
  have hdraws := consumeActionBudget_draws id hx hbudget
  unfold checkActionPolicy at hpolicy
  split at hpolicy
  · rw [Act.pure_ok] at hpolicy
    obtain ⟨_, rfl⟩ := hpolicy
    exact hdraws
  · simp only [Act.bind_ok, Act.read_ok, Act.step_ok] at hpolicy
    obtain ⟨_, _, ⟨_, rfl⟩, hcheck⟩ := hpolicy
    obtain ⟨w, hview, rfl⟩ := requirePolicyCheck_view hx hcheck
    unfold Draws at hdraws ⊢
    rw [← hview]
    exact hdraws

/-- The first phase of a batch consumes what its actions put to the envelope. -/
theorem validateActions_draws {walletId : ℕ} {policy gate : Option Address}
    {totals totals' : BatchTotals} {actions : List BatchAction}
    (h : validateActions H env walletId caller policy gate totals actions s
      = (.ok totals', s')) :
    Draws budget id view env (actions.map (BatchAction.drawn gate budget id)).sum s.world
      s'.world := by
  induction actions generalizing totals s with
  | nil =>
      rw [validateActions, Act.pure_ok] at h
      obtain ⟨_, rfl⟩ := h
      exact draws_of_eq rfl
  | cons action rest ih =>
      rw [validateActions, Act.bind_ok] at h
      obtain ⟨totals₁, s₁, hfirst, hrest⟩ := h
      rw [List.map_cons, List.sum_cons]
      exact (validateAction_draws id hx hfirst).trans (ih hrest)

/-! ## The entrypoints -/

theorem spend_draws {walletId : ℕ} {payee : Address} {u : Unit}
    (h : spend H env caller walletId payee asset amount s = (.ok u, s')) :
    Draws budget id view env
      (if wiredBudget H s = some budget ∧ budgetIdFor s asset = some id then amount else 0) s.world
      s'.world := by
  simp only [spend, unlockOnError, Act.bind_ok, Act.onError_ok, Act.step_ok, Act.read_ok,
    Except.ok.injEq] at h
  obtain ⟨_, _, hlock, _, s₁, hchecks, _, _, hvelocity, _, _, hrate, _, _, ⟨_, rfl⟩, _, _, hdebit,
    _, _, hsafe, rfl⟩ := h
  obtain ⟨_, rfl⟩ := lock_ok hlock
  have hdraws := preExecuteChecks_draws id hx hchecks
  obtain ⟨velocityUsage, rfl⟩ := enforceVelocity_ok hvelocity
  obtain ⟨rateLimitUsage, rfl⟩ := enforceRateLimit_ok hrate
  obtain ⟨_, rfl⟩ := debit_ok hdebit
  obtain ⟨w', _, htransfer, rfl⟩ := safeTransferOut_ok hsafe
  -- the transfer itself leaves the budget contract alone
  have hview : view w' = view s₁.world := hx.transfer htransfer
  have hdrawn := hdraws.trans (draws_of_eq hview)
  rw [add_zero] at hdrawn
  exact hdrawn

theorem batchExecuteValidated_draws {walletId : ℕ} {actions : List BatchAction}
    {receipt : BatchReceipt}
    (hleaves : ∀ action ∈ actions, ∀ w w', H.invoke env w action.call = .ok w' →
      Draws budget id view env 0 w w')
    (h : batchExecuteValidated H env caller walletId actions s = (.ok receipt, s')) :
    Draws budget id view env (actions.map (BatchAction.drawn (wiredBudget H s) budget id)).sum
      s.world s'.world := by
  simp only [batchExecuteValidated, unlockOnError, Act.bind_ok, Act.onError_ok, Act.step_ok,
    Act.read_ok, Act.pure_ok, Except.ok.injEq] at h
  obtain ⟨_, _, ⟨_, rfl⟩, _, _, ⟨_, rfl⟩, _, _, ⟨_, rfl⟩, _, _, ⟨_, rfl⟩, _, _, ⟨_, rfl⟩, _, _, hlock,
    ⟨policy, gate⟩, _, ⟨hgates, rfl⟩, taken, _, ⟨htaken, rfl⟩, totals, s₁, hvalid, _, _, hrate, _, _,
    hflush, _, _, hcalls, _, _, hunlock, _, rfl⟩ := h
  obtain ⟨_, rfl⟩ := lock_ok hlock
  have hwired : taken.2 = wiredBudget H s := by
    rw [← htaken]
    exact wiredBudget_of_batch hgates
  have hdraws := validateActions_draws id hx hvalid
  rw [hwired] at hdraws
  obtain ⟨rateLimitUsage, rfl⟩ := enforceRateLimit_ok hrate
  obtain ⟨velocityUsage, hflushed⟩ := velocityFlush_eq _ walletId totals.velocity
  rw [hflushed] at hflush
  subst hflush
  obtain ⟨w', hinvokes, rfl⟩ := executeCalls_ok hcalls
  subst hunlock
  have hdrawn := hdraws.trans (hinvokes.leaves hleaves)
  rw [add_zero] at hdrawn
  exact hdrawn

theorem Consults.draws {w w' : World} (h : Consults H env w w') :
    Draws budget id view env 0 w w' := by
  induction h with
  | refl => exact draws_of_eq rfl
  | @tail w₁ w₂ _ hstep ih =>
      have hlast : Draws budget id view env 0 w₁ w₂ := by
        rcases hstep with ⟨_, _, _, _, _, hcheck⟩ | ⟨gate, caller, id', amount, _, hconsume⟩
        · exact draws_of_eq (hx.checkTransfer hcheck)
        · by_cases hgate : gate = budget
          · subst hgate
            have hconsumes := hx.consume hconsume
            refine hconsumes.draws.mono ?_
            split
            · exact hconsumes.pos.le
            · exact le_rfl
          · exact draws_of_eq (hx.others hgate hconsume)
      have hdraws := ih.trans hlast
      rw [add_zero] at hdraws
      exact hdraws

end Gates

/-- **A call draws on an envelope what it puts to it**, and releases nothing into it. -/
theorem exec_draws (hx : H.Budgeted budget view) {call : Call}
    (hleaves : LeavesEnvelope H budget id view env call) (h : exec H env s call = .ok s') :
    Draws budget id view env (drawn H budget id s call) s.world s'.world := by
  have hundrawn : (∀ caller walletId actions, call ≠ .batchExecuteValidated caller walletId actions) →
      Draws budget id view env 0 s.world s'.world := by
    intro hbatch
    cases exec_effect h with
    | unmoved hsame =>
        rw [hsame.world]
        exact draws_of_eq rfl
    | deposited walletId src asset amount _ _ _ htransfer _ =>
        exact draws_of_eq (hx.transfer htransfer)
    | spent walletId payee asset amount hspent =>
        obtain ⟨w, hconsults, htransfer⟩ := hspent.world
        have hdraws := (hconsults.draws id hx).trans (draws_of_eq (hx.transfer htransfer))
        rw [add_zero] at hdraws
        exact hdraws
    | batched caller walletId actions hcall => exact absurd hcall (hbatch caller walletId actions)
  cases call with
  | transfer caller walletId payee asset amount =>
      obtain ⟨u, h⟩ := snd_map_ok h
      simp only [Act.commit_eq_ok, transfer, Act.bind_ok, Act.read_ok] at h
      obtain ⟨_, _, ⟨_, rfl⟩, _, _, ⟨_, rfl⟩, _, _, ⟨_, rfl⟩, _, _, ⟨_, rfl⟩, _, _, ⟨_, rfl⟩,
        hspend⟩ := h
      exact spend_draws id hx hspend
  | withdraw caller walletId asset amount =>
      obtain ⟨u, h⟩ := snd_map_ok h
      simp only [Act.commit_eq_ok, withdraw, Act.bind_ok, Act.read_ok] at h
      obtain ⟨_, _, ⟨_, rfl⟩, _, _, ⟨_, rfl⟩, _, _, ⟨_, rfl⟩, _, _, ⟨_, rfl⟩, hspend⟩ := h
      exact spend_draws id hx hspend
  | batchExecuteValidated caller walletId actions =>
      obtain ⟨receipt, h⟩ := snd_map_ok h
      exact batchExecuteValidated_draws id hx hleaves (Act.commit_eq_ok.1 h)
  | _ => exact hundrawn fun _ _ _ hcall => by cases hcall

end WalletContract
end Astroid
