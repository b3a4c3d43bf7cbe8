import Astroid.Lib.Pool
import Astroid.Treasury.Ledger
import Astroid.Shared.Debits

/-!
# Whose tokens a treasury call moves

A deposit is pulled from a party who authorized the call, and every payment leaves
custody (`exec_spares`).  The books of a treasury are one account in its custody
(`pool_of_path`).
-/

namespace Astroid
namespace TreasuryContract

open Outcome

variable {World : Type} {H : TreasuryHost World} {env : Env H.self} {s s' : State World}
  {w w' : World}

/-- Tokens are standard, and policies and budgets take none from anybody. -/
structure TreasuryHost.Harmless (H : TreasuryHost World) : Prop where
  standard : H.Standard
  checkTransfer : ∀ env w policy id asset payee amount w',
    H.checkTransfer env w policy id asset payee amount = some w' →
    H.Spares (fun _ => False) w w'
  consume : ∀ env w budget caller id amount w',
    H.consume env w budget caller id amount = some w' → H.Spares (fun _ => False) w w'

namespace TreasuryHost.Harmless

/-- Then nobody else takes tokens out of the treasury's custody. -/
theorem honest (hx : H.Harmless) : H.Honest where
  transfer := by
    intro w asset src dst amount w' h a ha
    have hne : ∀ holder, ¬ (a = asset ∧ H.self = holder) := fun holder hc => ha hc.1
    unfold TokenHost.custody
    rw [hx.standard.exact _ _ _ _ _ _ h a H.self, if_neg (hne src), if_neg (hne dst), sub_zero,
      add_zero]
  checkTransfer := fun env w policy id asset payee amount w' h a =>
    hx.checkTransfer env w policy id asset payee amount w' h a H.self not_false
  consume := fun env w budget caller id amount w' h a =>
    hx.consume env w budget caller id amount w' h a H.self not_false

theorem consults (hx : H.Harmless) (h : Consults H env w w') : H.Spares env.Pays w w' := by
  refine TokenHost.Spares.chain ?_ h
  rintro w w' (⟨_, _, _, _, _, hcall⟩ | ⟨_, _, _, _, hcall⟩)
  · exact (hx.checkTransfer _ _ _ _ _ _ _ _ hcall).mono fun _ hfalse => hfalse.elim
  · exact (hx.consume _ _ _ _ _ _ _ hcall).mono fun _ hfalse => hfalse.elim

end TreasuryHost.Harmless

theorem sendPayments_spares (hx : H.Standard) {asset : Address} {payments : List Payment}
    (h : sendPayments H asset w payments = .ok w') : H.Spares env.Pays w w' := by
  induction payments generalizing w with
  | nil =>
      cases h
      exact .refl
  | cons payment rest ih =>
      simp only [sendPayments, bind_eq_ok, TokenHost.transferOrTrap_eq_ok] at h
      obtain ⟨w₁, htransfer, hrest⟩ := h
      exact (hx.spares htransfer (.inl rfl)).trans (ih hrest)

theorem payOut_spares (hx : H.Standard) {asset : Address} {total : ℤ} {payments : List Payment}
    (h : payOut H s asset total payments = .ok s') : H.Spares env.Pays s.world s'.world := by
  simp only [payOut, bind_eq_ok, pure_eq_ok] at h
  obtain ⟨_, _, _, _, w, hsend, _, _, _, _, _, _, rfl⟩ := h
  exact sendPayments_spares hx hsend

/-- The debit of the books moves nothing. -/
theorem debit_world {asset : Address} {h : Holding} {amount : ℤ}
    (hd : debit s asset h amount = .ok s') : s'.world = s.world := by
  rw [debit_ok hd]
  rfl

theorem settleWithdrawal_spares (hx : H.Harmless) {t : Treasury} {caller asset payee : Address}
    {amount : ℤ} (h : settleWithdrawal H env s t caller asset payee amount = .ok s') :
    H.Spares env.Pays s.world s'.world := by
  obtain ⟨w₁, w₂, allowance, s₁, s₂, hpolicy, hbudget, _, _, hdebit, hpay, rfl⟩ :=
    settleWithdrawal_steps h
  have hconsults := hx.consults ((checkPolicy_ok hpolicy).trans (consumeBudget_ok hbudget))
  have hpaid : H.Spares env.Pays s₁.world s₂.world := payOut_spares hx.standard hpay
  rw [debit_world hdebit] at hpaid
  exact hconsults.trans hpaid

theorem settleBatch_spares (hx : H.Harmless) {t : Treasury} {caller asset : Address}
    {payments : List Payment} (h : settleBatch H env s t caller asset payments = .ok s') :
    H.Spares env.Pays s.world s'.world := by
  obtain ⟨w₁, w₂, s₁, s₂, hpolicy, hbudget, hdebit, hpay, rfl⟩ := settleBatch_steps h
  have hconsults := hx.consults ((checkPolicies_ok hpolicy).trans (consumeBudget_ok hbudget))
  have hpaid : H.Spares env.Pays s₁.world s₂.world := payOut_spares hx.standard hpay
  rw [debit_world hdebit] at hpaid
  exact hconsults.trans hpaid

theorem releaseNextMilestone_spares (hx : H.Harmless) {caller : Address} {id : ℕ}
    (h : releaseNextMilestone H env s caller id = .ok s') :
    H.Spares env.Pays s.world s'.world := by
  obtain ⟨t, d, amount, w, s₁, s₂, _, _, _, _, _, _, hbudget, _, hdebit, hpay, rfl⟩ :=
    releaseNextMilestone_steps h
  have hconsults := hx.consults (consumeBudget_ok hbudget)
  have hpaid : H.Spares env.Pays s₁.world s₂.world := payOut_spares hx.standard hpay
  rw [debit_world hdebit] at hpaid
  exact hconsults.trans hpaid

theorem executeWithdrawal_spares (hx : H.Harmless) {caller : Address} {id : ℕ}
    (h : executeWithdrawal H env s caller id = .ok s') :
    H.Spares env.Pays s.world s'.world := by
  obtain ⟨t, p, _, _, _, _, _, _, _, _, h⟩ := executeWithdrawal_steps h
  split at h
  · have hspares := settleWithdrawal_spares hx h
    exact hspares
  · have hspares := settleBatch_spares hx h
    exact hspares

theorem deposit_spares (hx : H.Standard) {src asset : Address} {amount : ℤ}
    (h : deposit H env s src asset amount = .ok s') : H.Spares env.Pays s.world s'.world := by
  have hauth : src ∈ env.auths := by
    simp only [deposit, bind_eq_ok, requireAuth_eq_ok] at h
    obtain ⟨_, _, _, hauth, _⟩ := h
    exact hauth
  obtain ⟨w, received, _, _, htransfer, _, rfl⟩ := deposit_ok h
  exact hx.spares htransfer (.inr hauth)

/-- **A call takes tokens from custody and from whoever authorized it, and from nobody
else.** -/
theorem exec_spares (hx : H.Harmless) {call : Call} (h : exec H env s call = .ok s') :
    H.Spares env.Pays s.world s'.world := by
  have hunpaid : (∀ asset payments, ¬ Gated s call asset payments) →
      (∀ src asset amount, call ≠ .deposit src asset amount) →
      (∀ caller id, call ≠ .executeWithdrawal caller id) →
      H.Spares env.Pays s.world s'.world := by
    intro hgated hdeposit hexecute
    cases exec_effect h with
    | configured hsame =>
        rw [hsame.world]
        exact .refl
    | queued p _ _ _ _ _ hs' =>
        subst hs'
        exact .refl
    | cancelled caller id p _ _ _ hs' =>
        subst hs'
        exact .refl
    | deposited src asset amount _ hcall => exact absurd hcall (hdeposit src asset amount)
    | paid asset payments _ hgate => exact absurd hgate (hgated asset payments)
    | executed caller id p hcall => exact absurd hcall (hexecute caller id)
  cases call with
  | deposit src asset amount => exact deposit_spares hx.standard h
  | withdraw caller asset payee amount =>
      obtain ⟨_, _, _, _, _, _, _, hsettle⟩ := withdraw_ok h
      exact settleWithdrawal_spares hx hsettle
  | batchTransfer caller asset payments =>
      obtain ⟨_, _, _, _, _, _, _, hsettle⟩ := batchTransfer_ok h
      exact settleBatch_spares hx hsettle
  | executeWithdrawal caller id => exact executeWithdrawal_spares hx h
  | releaseNextMilestone caller id => exact releaseNextMilestone_spares hx h
  | _ =>
      refine hunpaid ?_ (fun _ _ _ hcall => by cases hcall) (fun _ _ hcall => by cases hcall)
      intro asset payments hgate
      cases hgate

/-! ## What the books claim -/

/-- The treasury's one account, number 0: what its books hold of an asset. -/
def State.owedTo (s : State World) (account : ℕ) (asset : Address) : ℤ :=
  if account = 0 then s.books.totalIn asset else 0

/-- **Custody covers the books**, in every run whose executed batches are covered. -/
theorem pool_of_path (hx : H.Honest) {t : ℕ} {tr : List (Entry (State World) (Inputs H))}
    (hpath : (machine H).Path coveredBatches tr s t) :
    Pool.Solvent s.owedTo (H.custody s.world) := by
  have hbacked : s.books.Backed (H.custody s.world) := by
    refine hpath.invariant (P := fun s => s.books.Backed (H.custody s.world))
      (fun _ => Fresh.backed) ?_
    intro i s s' hb hcovers hstep
    cases i with
    | invoke env call => exact (exec_effect hstep).backed hx hcovers hb
    | outside time w =>
        obtain ⟨hcustody, rfl⟩ := hstep
        exact hb.mono hcustody
  refine .of_carrier (C := {0}) ?_ ?_ ?_
  · intro account asset
    unfold State.owedTo
    split
    · exact (hbacked asset).1
    · exact le_rfl
  · intro account haccount asset
    exact if_neg (by simpa using haccount)
  · intro asset
    rw [Finset.sum_singleton]
    exact (hbacked asset).2

end TreasuryContract
end Astroid
