import Astroid.Treasury.Effects

/-!
# The routes out of the treasury

Value leaves through three settlement routines: `settle_withdrawal`, `settle_batch`
and the body of `release_next_milestone`.  Every call that returns took one of the
routes to them, or moved no value (`exec_route`).
-/

namespace Astroid
namespace TreasuryContract

open Outcome

variable {World : Type} {H : TreasuryHost World} {env : Env H.self} {s s' : State World}

/-- The allowance a configuration call writes. -/
def Call.allowanceId : Call → Option AllowanceId
  | .setAllowance _ agent recipient asset _ _ => some ⟨agent, recipient, asset⟩
  | .removeAllowance _ agent recipient asset => some ⟨agent, recipient, asset⟩
  | _ => none

/-- A call that paid nobody: it changed the holdings of approved assets at most, and
no allowance but the one it names. -/
structure Quiet (s : State World) (call : Call) (s' : State World) : Prop where
  outflows : s'.outflows = s.outflows
  holding : ∀ a, s.approvedAsset a = false → s'.holding a = s.holding a
  allowance : ∀ id, call.allowanceId ≠ some id → s'.allowance id = s.allowance id

/-- The way a call that returned took. -/
inductive Route (H : TreasuryHost World) (env : Env H.self) (s : State World) :
    Call → State World → Prop
  | quiet {call : Call} {s' : State World} : Quiet s call s' → Route H env s call s'
  | withdraw {caller a payee : Address} {amount : ℤ} {t : Treasury} {s' : State World} :
      s.treasury = some t → s.approvedAsset a = true →
      settleWithdrawal H env s t caller a payee amount = .ok s' →
      Route H env s (.withdraw caller a payee amount) s'
  | batch {caller a : Address} {payments : List Payment} {t : Treasury} {s' : State World} :
      s.treasury = some t → settleBatch H env s t caller a payments = .ok s' →
      Route H env s (.batchTransfer caller a payments) s'
  | executed {caller : Address} {id : ℕ} {p : PendingWithdrawal} {t : Treasury}
      {s' : State World} : s.treasury = some t → s.pendingWithdrawal id = some p →
      s.approvedAsset p.asset = true → p.payments = [] →
      settleWithdrawal H env (s.storePending id { p with executed := true }) t caller p.asset
        p.payee p.amount = .ok s' →
      Route H env s (.executeWithdrawal caller id) s'
  | executedBatch {caller : Address} {id : ℕ} {p : PendingWithdrawal} {t : Treasury}
      {s' : State World} : s.treasury = some t → s.pendingWithdrawal id = some p →
      s.approvedAsset p.asset = true → p.payments ≠ [] →
      settleBatch H env (s.storePending id { p with executed := true }) t caller p.asset
        p.payments = .ok s' →
      Route H env s (.executeWithdrawal caller id) s'
  | released {caller : Address} {id : ℕ} {d : MilestoneDisbursement} {amount : ℤ} {t : Treasury}
      {w : World} {s₁ s₂ : State World} : s.treasury = some t → s.milestone id = some d →
      s.approvedAsset d.asset = true →
      debit { s.storeMilestone id { d with disbursed := d.disbursed + 1 } with
        reentrancyLock := true, world := w } d.asset (s.loadHolding d.asset) amount = .ok s₁ →
      transferOut H s₁ d.asset d.payee amount = .ok s₂ →
      Route H env s (.releaseNextMilestone caller id) s₂.unlock

/-- A holding written for an approved asset is none of the others'. -/
theorem holding_of_storeHolding {a b : Address} {h : Holding} (happroved : s.approvedAsset a = true)
    (hb : s.approvedAsset b = false) : (s.storeHolding a h).holding b = s.holding b := by
  refine Function.update_of_ne ?_ _ _
  rintro rfl
  rw [happroved] at hb
  cases hb

theorem deposit_quiet {src a : Address} {amount : ℤ}
    (h : deposit H env s src a amount = .ok s') : Quiet s (.deposit src a amount) s' := by
  obtain ⟨w, received, happroved, _, _, _, rfl⟩ := deposit_ok h
  exact ⟨rfl, fun b hb => holding_of_storeHolding (s := s) happroved hb, fun _ _ => rfl⟩

theorem allocateBudget_quiet {admin a : Address} {budgetId : String}
    (h : allocateBudget H env s admin a budgetId = .ok s') :
    Quiet s (.allocateBudget admin a budgetId) s' := by
  obtain ⟨happroved, rfl⟩ := allocateBudget_ok h
  exact ⟨rfl, fun b hb => holding_of_storeHolding happroved hb, fun _ _ => rfl⟩

theorem setAllowance_quiet {admin agent recipient a : Address} {limit : ℤ} {expiresAt : UInt64}
    (h : setAllowance H env s admin agent recipient a limit expiresAt = .ok s') :
    Quiet s (.setAllowance admin agent recipient a limit expiresAt) s' := by
  obtain ⟨_, rfl⟩ := setAllowance_ok h
  refine ⟨rfl, fun _ _ => rfl, ?_⟩
  intro id hid
  exact Function.update_of_ne (fun heq => hid (congrArg some heq.symm)) _ _

theorem removeAllowance_quiet {admin agent recipient a : Address}
    (h : removeAllowance H env s admin agent recipient a = .ok s') :
    Quiet s (.removeAllowance admin agent recipient a) s' := by
  obtain rfl := removeAllowance_ok h
  refine ⟨rfl, fun _ _ => rfl, ?_⟩
  intro id hid
  exact Function.update_of_ne (fun heq => hid (congrArg some heq.symm)) _ _

theorem openPending_quiet {requester a payee : Address} {amount : ℤ} {payments : List Payment}
    {id : ℕ} {call : Call}
    (h : openPending H env s requester a payee amount payments = .ok (id, s')) :
    Quiet s call s' := by
  obtain ⟨p, _, _, _, _, _, _, _, rfl⟩ := openPending_ok h
  exact ⟨rfl, fun _ _ => rfl, fun _ _ => rfl⟩

theorem releaseNextMilestone_route {caller : Address} {id : ℕ}
    (h : releaseNextMilestone H env s caller id = .ok s') :
    Route H env s (.releaseNextMilestone caller id) s' := by
  obtain ⟨t, d, amount, w, s₁, s₂, _, ht, hd, _, happroved, _, _, _, hdebit, hpay, rfl⟩ :=
    releaseNextMilestone_steps h
  exact .released ht hd happroved hdebit hpay

theorem executeWithdrawal_route {caller : Address} {id : ℕ}
    (h : executeWithdrawal H env s caller id = .ok s') :
    Route H env s (.executeWithdrawal caller id) s' := by
  obtain ⟨t, p, _, _, ht, hp, _, _, _, happroved, h⟩ := executeWithdrawal_steps h
  split at h
  · rename_i hsingle
    exact .executed ht hp happroved hsingle h
  · rename_i hbatch
    exact .executedBatch ht hp happroved hbatch h

/-- **Every call that returned took one of the routes.** -/
theorem exec_route {call : Call} (h : exec H env s call = .ok s') : Route H env s call s' := by
  have hconfigures : call.Configures → Route H env s call s' := by
    intro hcall
    obtain ⟨_, _, rfl⟩ := exec_configures hcall h
    exact .quiet ⟨rfl, fun _ _ => rfl, fun _ _ => rfl⟩
  cases call with
  | initializeContract | setRegistry | setPolicy | setBudget | setMultisig | setGuardian | freeze
  | unfreeze | pause | unpause => exact hconfigures trivial
  | addApprovedAsset caller asset =>
      obtain ⟨_, _, rfl⟩ := addApprovedAsset_ok h
      exact .quiet ⟨rfl, fun _ _ => rfl, fun _ _ => rfl⟩
  | removeApprovedAsset caller asset =>
      obtain ⟨_, rfl⟩ := removeApprovedAsset_ok h
      exact .quiet ⟨rfl, fun _ _ => rfl, fun _ _ => rfl⟩
  | deposit src asset amount => exact .quiet (deposit_quiet h)
  | allocateBudget admin asset budgetId => exact .quiet (allocateBudget_quiet h)
  | setAllowance admin agent recipient asset limit expiresAt =>
      exact .quiet (setAllowance_quiet h)
  | removeAllowance admin agent recipient asset => exact .quiet (removeAllowance_quiet h)
  | withdraw caller asset payee amount =>
      obtain ⟨t, ht, _, _, _, happroved, _, hsettle⟩ := withdraw_ok h
      exact .withdraw ht happroved hsettle
  | batchTransfer caller asset payments =>
      obtain ⟨t, ht, _, _, _, _, _, hsettle⟩ := batchTransfer_ok h
      exact .batch ht hsettle
  | setWithdrawalTimeLock caller delay threshold =>
      obtain ⟨_, _, rfl⟩ := setWithdrawalTimeLock_ok h
      exact .quiet ⟨rfl, fun _ _ => rfl, fun _ _ => rfl⟩
  | queueWithdrawal caller asset payee amount =>
      obtain ⟨id, h⟩ := snd_map_ok h
      exact .quiet (openPending_quiet (queueWithdrawal_ok h).2)
  | queueBatchTransfer caller asset payments =>
      obtain ⟨id, h⟩ := snd_map_ok h
      obtain ⟨_, _, _, hopen⟩ := queueBatchTransfer_ok h
      exact .quiet (openPending_quiet hopen)
  | executeWithdrawal caller id => exact executeWithdrawal_route h
  | cancelWithdrawal caller id =>
      obtain ⟨p, _, _, rfl⟩ := cancelWithdrawal_ok h
      exact .quiet ⟨rfl, fun _ _ => rfl, fun _ _ => rfl⟩
  | initMilestoneDisbursement caller asset payee totalAmount milestones =>
      obtain ⟨id, h⟩ := snd_map_ok h
      obtain ⟨_, _, _, _, rfl⟩ := initMilestoneDisbursement_ok h
      exact .quiet ⟨rfl, fun _ _ => rfl, fun _ _ => rfl⟩
  | releaseNextMilestone caller id => exact releaseNextMilestone_route h

end TreasuryContract
end Astroid
