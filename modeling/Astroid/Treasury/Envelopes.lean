import Astroid.Budget.Gate
import Astroid.Treasury.Effects

/-!
# What a treasury draws on an envelope

A holding may name an envelope of the budget contract.  Every payment of its asset consumes
the envelope before it leaves: a withdrawal, the total of a batch, a released milestone
(`exec_draws`).
-/

namespace Astroid
namespace TreasuryContract

open Outcome

variable {World : Type} {H : TreasuryHost World} {env : Env H.self} {s s' s₁ : State World}
  {budget asset caller : Address} {id : String} {amount : ℤ} {t : Treasury}
  {payments : List Payment} {w w' : World} {view : World → BudgetContract.State}

/-- At `budget` there is a budget contract, which stores what `view` shows and is reached
through `consume` alone. -/
structure TreasuryHost.Budgeted (H : TreasuryHost World) (budget : Address)
    (view : World → BudgetContract.State) : Prop where
  consume : ∀ {env w caller id amount w'}, H.consume env w budget caller id amount = some w' →
    BudgetContract.Consumes budget id env.timestamp.toNat amount (view w) (view w')
  others : ∀ {env w other caller id amount w'}, other ≠ budget →
    H.consume env w other caller id amount = some w' → view w' = view w
  checkTransfer : ∀ {env w policy id asset payee amount w'},
    H.checkTransfer env w policy id asset payee amount = some w' → view w' = view w
  transfer : ∀ {w asset src dst amount w'}, H.transfer w asset src dst amount = .ok w' →
    view w' = view w

/-- The call draws at least `amount` on the envelope `id`. -/
def Draws (budget : Address) (id : String) (view : World → BudgetContract.State)
    (env : Env H.self) (amount : ℤ) (w w' : World) : Prop :=
  BudgetContract.Draws budget id env.timestamp.toNat amount (view w) (view w')

theorem draws_of_eq (h : view w' = view w) : Draws budget id view env 0 w w' := by
  unfold Draws
  rw [h]
  exact .refl

/-- Payments of the asset are put to the envelope `id` at `budget`. -/
def State.Covers (s : State World) (budget : Address) (id : String) (asset : Address) : Prop :=
  s.treasury.bind (·.budget) = some budget ∧ (s.loadHolding asset).budgetId = some id

instance (s : State World) (budget : Address) (id : String) (asset : Address) :
    Decidable (s.Covers budget id asset) :=
  inferInstanceAs (Decidable (_ ∧ _))

/-- What the call that led from `s` to `s'` paid under the envelope `id`. -/
def drawn (budget : Address) (id : String) (s s' : State World) : ℤ :=
  (((s'.outflows.drop s.outflows.length).filter (s.Covers budget id ·.asset)).map (·.amount)).sum

/-- The call paid out one asset, and drew what it paid on the envelope that covers it. -/
def SettlesUnder (budget : Address) (id : String) (view : World → BudgetContract.State)
    (env : Env H.self) (s s' : State World) : Prop :=
  ∃ asset payments, s'.outflows = s.outflows ++ payments.map (fun p => ⟨asset, p.recipient, p.amount⟩) ∧
    Draws budget id view env (if s.Covers budget id asset then paymentsTotal payments else 0)
      s.world s'.world

/-- What it paid is what it drew. -/
theorem SettlesUnder.draws (h : SettlesUnder budget id view env s s') :
    Draws budget id view env (drawn budget id s s') s.world s'.world := by
  obtain ⟨asset, payments, hout, hdraws⟩ := h
  have hdrawn : drawn budget id s s'
      = if s.Covers budget id asset then paymentsTotal payments else 0 := by
    unfold drawn paymentsTotal
    rw [hout, List.drop_left, List.filter_map, List.map_map]
    by_cases hcovers : s.Covers budget id asset
    · simp [hcovers, Function.comp_def]
    · simp [hcovers, Function.comp_def]
  rw [hdrawn]
  exact hdraws

section Settlements

variable (id) (hx : H.Budgeted budget view)
include hx

theorem checkPolicy_view {payee : Address} (h : checkPolicy H env w t asset payee amount = .ok w') :
    view w' = view w := by
  unfold checkPolicy at h
  split at h
  · exact hx.checkTransfer (orFail_eq_ok.1 h)
  · cases h
    rfl

theorem checkPolicies_view (h : checkPolicies H env w t asset payments = .ok w') :
    view w' = view w := by
  induction payments generalizing w with
  | nil =>
      cases h
      rfl
  | cons payment rest ih =>
      simp only [checkPolicies, bind_eq_ok] at h
      obtain ⟨w₁, hfirst, hrest⟩ := h
      rw [ih hrest, checkPolicy_view hx hfirst]

theorem sendPayments_view (h : sendPayments H asset w payments = .ok w') : view w' = view w := by
  induction payments generalizing w with
  | nil =>
      cases h
      rfl
  | cons payment rest ih =>
      simp only [sendPayments, bind_eq_ok, TokenHost.transferOrTrap_eq_ok] at h
      obtain ⟨w₁, htransfer, hrest⟩ := h
      rw [ih hrest, hx.transfer htransfer]

/-- The budget gate consumes the amount of the envelope the holding names. -/
theorem consumeBudget_draws (ht : s.treasury = some t)
    (h : consumeBudget H env w t (s.loadHolding asset) caller amount = .ok w') :
    Draws budget id view env (if s.Covers budget id asset then amount else 0) w w' := by
  have hcovers : s.Covers budget id asset ↔
      t.budget = some budget ∧ (s.loadHolding asset).budgetId = some id := by
    unfold State.Covers
    rw [ht, Option.bind_some]
  simp only [hcovers]
  unfold consumeBudget at h
  split at h
  · rename_i gate id' hgate hid
    rw [orFail_eq_ok] at h
    simp only [hgate, hid, Option.some.injEq]
    by_cases hsame : gate = budget
    · subst hsame
      have hdraws : BudgetContract.Draws gate id env.timestamp.toNat (if id' = id then amount else 0)
          (view w) (view w') := (hx.consume h).draws
      simp only [true_and]
      exact hdraws
    · rw [if_neg fun hc => hsame hc.1]
      exact draws_of_eq (hx.others hsame h)
  · rename_i hnone
    cases h
    have hunmet : ¬ (t.budget = some budget ∧ (s.loadHolding asset).budgetId = some id) :=
      fun hc => hnone budget id hc.1 hc.2
    rw [if_neg hunmet]
    exact draws_of_eq rfl

/-- The measured payout moves tokens alone. -/
theorem payOut_view {total : ℤ} (h : payOut H s asset total payments = .ok s') :
    view s'.world = view s.world ∧
      s'.outflows = s.outflows ++ payments.map fun p => ⟨asset, p.recipient, p.amount⟩ := by
  simp only [payOut, bind_eq_ok, pure_eq_ok] at h
  obtain ⟨_, _, _, _, w, hsend, _, _, _, _, _, _, rfl⟩ := h
  exact ⟨sendPayments_view hx hsend, rfl⟩

/-- A payout after its amount was consumed. -/
theorem settles_of_payOut {total : ℤ} {w₁ w₂ : World}
    (hpay : payOut H s₁ asset total payments = .ok s') (htotal : total = paymentsTotal payments)
    (ht : s.treasury = some t) (hview : view w₁ = view s.world)
    (hbudget : consumeBudget H env w₁ t (s.loadHolding asset) caller total = .ok w₂)
    (hworld : s₁.world = w₂) (hout : s₁.outflows = s.outflows) :
    SettlesUnder budget id view env s s'.unlock := by
  obtain ⟨hkept, hpaid⟩ := payOut_view hx hpay
  have hdraws := consumeBudget_draws id hx ht hbudget
  refine ⟨asset, payments, ?_, ?_⟩
  · rw [← hout]
    exact hpaid
  · unfold Draws at hdraws ⊢
    rw [← htotal, ← hview]
    have hsame : view s'.unlock.world = view w₂ := by
      rw [← hworld]
      exact hkept
    rw [hsame]
    exact hdraws

theorem settleWithdrawal_settlesUnder {payee : Address} (ht : s.treasury = some t)
    (h : settleWithdrawal H env s t caller asset payee amount = .ok s') :
    SettlesUnder budget id view env s s' := by
  obtain ⟨w₁, w₂, allowance, s₁, s₂, hpolicy, hbudget, _, _, hdebit, hpay, rfl⟩ :=
    settleWithdrawal_steps h
  obtain rfl := debit_ok hdebit
  exact settles_of_payOut id hx hpay (by simp [paymentsTotal]) ht (checkPolicy_view hx hpolicy)
    hbudget rfl rfl

theorem settleBatch_settlesUnder (ht : s.treasury = some t)
    (h : settleBatch H env s t caller asset payments = .ok s') :
    SettlesUnder budget id view env s s' := by
  obtain ⟨w₁, w₂, s₁, s₂, hpolicy, hbudget, hdebit, hpay, rfl⟩ := settleBatch_steps h
  obtain rfl := debit_ok hdebit
  exact settles_of_payOut id hx hpay rfl ht (checkPolicies_view hx hpolicy) hbudget rfl rfl

theorem releaseNextMilestone_settlesUnder {milestoneId : ℕ}
    (h : releaseNextMilestone H env s caller milestoneId = .ok s') :
    SettlesUnder budget id view env s s' := by
  obtain ⟨t, d, amount, w, s₁, s₂, _, ht, _, _, _, _, hbudget, _, hdebit, hpay, rfl⟩ :=
    releaseNextMilestone_steps h
  obtain rfl := debit_ok hdebit
  exact settles_of_payOut id hx hpay (by simp [paymentsTotal]) ht rfl hbudget rfl rfl

theorem executeWithdrawal_settlesUnder {requestId : ℕ}
    (h : executeWithdrawal H env s caller requestId = .ok s') :
    SettlesUnder budget id view env s s' := by
  obtain ⟨t, p, _, _, ht, _, _, _, _, _, h⟩ := executeWithdrawal_steps h
  -- marking the request touches neither the envelope nor the books
  have ht' : (s.storePending requestId { p with executed := true }).treasury = some t := ht
  split at h
  · have hsettles := settleWithdrawal_settlesUnder id hx ht' h
    exact hsettles
  · have hsettles := settleBatch_settlesUnder id hx ht' h
    exact hsettles

end Settlements

/-- **A call draws on an envelope what it pays under it**, and releases nothing into it. -/
theorem exec_draws (hx : H.Budgeted budget view) {call : Call} (h : exec H env s call = .ok s') :
    Draws budget id view env (drawn budget id s s') s.world s'.world := by
  -- nothing is paid
  have hunpaid : s'.outflows = s.outflows → view s'.world = view s.world →
      Draws budget id view env (drawn budget id s s') s.world s'.world := by
    intro hout hview
    unfold drawn
    rw [hout, List.drop_length]
    exact draws_of_eq hview
  have hquiet : (∀ asset payments, ¬ Gated s call asset payments) →
      (∀ caller id, call ≠ .executeWithdrawal caller id) →
      Draws budget id view env (drawn budget id s s') s.world s'.world := by
    intro hgated hexecute
    cases exec_effect h with
    | configured hsame => exact hunpaid hsame.outflows (congrArg view hsame.world)
    | queued p _ _ _ _ _ hs' =>
        subst hs'
        exact hunpaid rfl rfl
    | cancelled caller id p _ _ _ hs' =>
        subst hs'
        exact hunpaid rfl rfl
    | deposited src asset amount received _ _ htransfer _ _ hout =>
        exact hunpaid hout (hx.transfer htransfer)
    | paid asset payments _ hgate => exact absurd hgate (hgated asset payments)
    | executed caller id p hcall => exact absurd hcall (hexecute caller id)
  cases call with
  | withdraw caller asset payee amount =>
      obtain ⟨t, ht, _, _, _, _, _, hsettle⟩ := withdraw_ok h
      exact (settleWithdrawal_settlesUnder id hx ht hsettle).draws
  | batchTransfer caller asset payments =>
      obtain ⟨t, ht, _, _, _, _, _, hsettle⟩ := batchTransfer_ok h
      exact (settleBatch_settlesUnder id hx ht hsettle).draws
  | executeWithdrawal caller requestId => exact (executeWithdrawal_settlesUnder id hx h).draws
  | releaseNextMilestone caller milestoneId => exact (releaseNextMilestone_settlesUnder id hx h).draws
  | _ =>
      refine hquiet ?_ (fun _ _ hcall => by cases hcall)
      intro asset payments hgate
      cases hgate

end TreasuryContract
end Astroid
