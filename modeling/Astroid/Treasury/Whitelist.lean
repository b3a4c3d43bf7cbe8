import Astroid.Treasury.Ledger
import Astroid.Treasury.Routes

/-!
# The asset whitelist

A token contract that is not approved should take no part in any call: the
treasury should not invoke it, and what the treasury records of that asset should
stay.  That a call does not invoke a token is stated without a trace of calls:
the call has the same outcome, whatever that token does (`LeavesAlone`).  Every
entrypoint checks the whitelist but `batch_transfer`, which invokes the token as
soon as its other checks pass (`leavesAlone_iff`).
-/

namespace Astroid
namespace TreasuryContract

open Outcome

variable {World : Type} {H : TreasuryHost World} {env : Env H.self} {s s' : State World}
  {asset : Address}

/-- An approved asset is another one than an asset that is not. -/
theorem ne_of_approved {a : Address} {u : Unit} (hrevoked : s.approvedAsset asset = false)
    (h : s.requireApprovedAsset a = .ok u) : a ≠ asset := by
  rw [requireApprovedAsset_eq_ok] at h
  rintro rfl
  rw [h] at hrevoked
  cases hrevoked

/-! ## Another token in the place of one -/

/-- The same host, but the token contract `asset` answers as `balance` and `transfer` do. -/
def TreasuryHost.replaceToken (H : TreasuryHost World) (asset : Address)
    (balance : World → Address → Except TokenFailure ℤ)
    (transfer : World → Address → Address → ℤ → Except TokenFailure World) :
    TreasuryHost World :=
  { H with
    balance := fun w a holder => if a = asset then balance w holder else H.balance w a holder
    transfer := fun w a src dst amount =>
      if a = asset then transfer w src dst amount else H.transfer w a src dst amount }

section Replaced

variable {balance : World → Address → Except TokenFailure ℤ}
  {transfer : World → Address → Address → ℤ → Except TokenFailure World} {a : Address}

theorem custodyOrTrap_replaceToken (ha : a ≠ asset) (w : World) :
    (H.replaceToken asset balance transfer).custodyOrTrap w a = H.custodyOrTrap w a := by
  unfold TokenHost.custodyOrTrap
  simp only [TreasuryHost.replaceToken, if_neg ha]

theorem transferOrTrap_replaceToken (ha : a ≠ asset) (w : World) (src dst : Address) (amount : ℤ) :
    (H.replaceToken asset balance transfer).transferOrTrap w a src dst amount
      = H.transferOrTrap w a src dst amount := by
  unfold TokenHost.transferOrTrap
  simp only [TreasuryHost.replaceToken, if_neg ha]

theorem sendPayments_replaceToken (ha : a ≠ asset) (w : World) (payments : List Payment) :
    sendPayments (H.replaceToken asset balance transfer) a w payments
      = sendPayments H a w payments := by
  induction payments generalizing w with
  | nil => rfl
  | cons payment rest ih =>
      rw [sendPayments, sendPayments, transferOrTrap_replaceToken ha]
      exact bind_congr_ok fun w' _ => ih w'

theorem payOut_replaceToken (ha : a ≠ asset) (s : State World) (total : ℤ)
    (payments : List Payment) :
    payOut (H.replaceToken asset balance transfer) s a total payments
      = payOut H s a total payments := by
  unfold payOut
  rw [custodyOrTrap_replaceToken ha, sendPayments_replaceToken ha]
  refine bind_congr_ok fun before _ => bind_congr_ok fun _ _ => bind_congr_ok fun w _ => ?_
  rw [custodyOrTrap_replaceToken ha]

theorem settleWithdrawal_replaceToken (ha : a ≠ asset) (s : State World) (t : Treasury)
    (caller payee : Address) (amount : ℤ) :
    settleWithdrawal (H.replaceToken asset balance transfer) env s t caller a payee amount
      = settleWithdrawal H env s t caller a payee amount := by
  unfold settleWithdrawal transferOut
  refine bind_congr_ok fun _ _ => bind_congr_ok fun _ _ => bind_congr_ok fun _ _ =>
    bind_congr_ok fun _ _ => bind_congr_ok fun _ _ => bind_congr_ok fun s₁ _ => ?_
  rw [payOut_replaceToken ha]

theorem checkPolicies_replaceToken (w : World) (t : Treasury) (b : Address)
    (payments : List Payment) :
    checkPolicies (H.replaceToken asset balance transfer) env w t b payments
      = checkPolicies H env w t b payments := by
  induction payments generalizing w with
  | nil => rfl
  | cons payment rest ih =>
      unfold checkPolicies
      exact bind_congr_ok fun w' _ => ih w'

theorem settleBatch_replaceToken (ha : a ≠ asset) (s : State World) (t : Treasury)
    (caller : Address) (payments : List Payment) :
    settleBatch (H.replaceToken asset balance transfer) env s t caller a payments
      = settleBatch H env s t caller a payments := by
  unfold settleBatch
  refine bind_congr_ok fun _ _ => bind_congr_ok fun _ _ => ?_
  rw [checkPolicies_replaceToken]
  refine bind_congr_ok fun _ _ => bind_congr_ok fun _ _ => bind_congr_ok fun s₁ _ => ?_
  rw [payOut_replaceToken ha]

end Replaced

/-! ## What a call leaves alone -/

/-- The call does not involve the token contract `asset`: its outcome is the same
whatever that token does, and it neither changes the holding nor pays out of it. -/
structure LeavesAlone (H : TreasuryHost World) (env : Env H.self) (s : State World) (call : Call)
    (asset : Address) : Prop where
  token : ∀ balance transfer,
    exec (H.replaceToken asset balance transfer) env s call = exec H env s call
  holding : ∀ s', exec H env s call = .ok s' → s'.holding asset = s.holding asset
  outflows : ∀ s', exec H env s call = .ok s' →
    s'.outflows.filter (·.asset = asset) = s.outflows.filter (·.asset = asset)

/-- Every check `batch_transfer` makes before it reads the custody balance passes. -/
def ReachesToken (H : TreasuryHost World) (env : Env H.self) (s : State World)
    (caller asset : Address) (payments : List Payment) : Prop :=
  ∃ t total s₁ w₁ w₂ s₂, requireBatchSize payments = .ok () ∧
    requireNotPaused H env s = .ok () ∧ s.checkFrozen = .ok () ∧
    requireAdmin H env s caller = .ok t ∧ requireActive t = .ok () ∧
    sumPositivePayments 0 payments = .ok total ∧ total ≤ (s.loadHolding asset).totalIn ∧
    requireVerifiedCaller H s t caller .multisig = .ok () ∧
    s.requireNotTimeLocked total = .ok () ∧ s.lock = .ok s₁ ∧
    checkPolicies H env s₁.world t asset payments = .ok w₁ ∧
    consumeBudget H env w₁ t (s₁.loadHolding asset) caller total = .ok w₂ ∧
    debit { s₁ with world := w₂ } asset (s₁.loadHolding asset) total = .ok s₂

/-- The call, if it is a batch transfer of `asset`, stops at one of its own checks. -/
def StopsBatch (H : TreasuryHost World) (env : Env H.self) (s : State World) (asset : Address)
    (call : Call) : Prop :=
  ∀ caller payments, call = .batchTransfer caller asset payments →
    ¬ ReachesToken H env s caller asset payments

/-- The two sums of the legs agree. -/
theorem sumPayments_of_sumPositivePayments {total r : ℤ} {payments : List Payment}
    (h : sumPositivePayments total payments = .ok r) : sumPayments total payments = .ok r := by
  induction payments generalizing total with
  | nil => exact h
  | cons payment rest ih =>
      simp only [sumPositivePayments, bind_eq_ok] at h
      obtain ⟨_, _, next, hnext, hrest⟩ := h
      rw [sumPayments, hnext]
      exact ih hrest

theorem paymentsTotal_pos {payments : List Payment} (hne : payments ≠ [])
    (hpos : ∀ p ∈ payments, 0 < p.amount) : 0 < paymentsTotal payments := by
  unfold paymentsTotal
  refine List.sum_pos _ ?_ (by simpa using hne)
  intro x hx
  obtain ⟨p, hp, rfl⟩ := List.mem_map.1 hx
  exact hpos p hp

/-- A batch transfer whose checks pass goes on to the measured payout, and what it pays
is positive. -/
theorem batchTransfer_of_reachesToken {caller : Address} {payments : List Payment}
    (h : ReachesToken H env s caller asset payments) :
    ∃ s₂ total, 0 < total ∧ ∀ balance transfer,
      batchTransfer (H.replaceToken asset balance transfer) env s caller asset payments
        = (payOut (H.replaceToken asset balance transfer) s₂ asset total payments >>= fun s₃ =>
            pure s₃.unlock) := by
  obtain ⟨t, total, s₁, w₁, w₂, s₂, hsize, hpaused, hfrozen, hadmin, hactive, hsum, hcovered,
    hverified, hunlocked, hlock, hpolicies, hbudget, hdebit⟩ := h
  have htotal : 0 < total := by
    obtain ⟨htotal, hpos⟩ := sumPositivePayments_ok hsum
    rw [htotal, zero_add]
    rw [requireBatchSize, require_eq_ok] at hsize
    exact paymentsTotal_pos hsize.1 hpos
  refine ⟨s₂, total, htotal, ?_⟩
  intro balance transfer
  have hpaused' : requireNotPaused (H.replaceToken asset balance transfer) env s = .ok () := hpaused
  have hadmin' : requireAdmin (H.replaceToken asset balance transfer) env s caller = .ok t := hadmin
  have hverified' :
      requireVerifiedCaller (H.replaceToken asset balance transfer) s t caller .multisig
        = .ok () := hverified
  have hbudget' : consumeBudget (H.replaceToken asset balance transfer) env w₁ t
      (s₁.loadHolding asset) caller total = .ok w₂ := hbudget
  unfold batchTransfer settleBatch
  simp only [hsize, hpaused', hfrozen, hadmin', hactive, hsum, require_pos hcovered, hverified',
    hunlocked, sumPayments_of_sumPositivePayments hsum, hlock, checkPolicies_replaceToken,
    hpolicies, hbudget', hdebit, ok_bind]

/-! ## What a payout touches -/

/-- What a payout touches: one asset. -/
structure Touches (s s' : State World) (asset : Address) : Prop where
  holding : ∀ a, a ≠ asset → s'.holding a = s.holding a
  outflows : ∃ new, s'.outflows = s.outflows ++ new ∧ ∀ o ∈ new, o.asset = asset

/-- What touches one asset keeps the outflows of the others. -/
theorem Touches.filter_outflows {a : Address} (h : Touches s s' a) (ha : a ≠ asset) :
    s'.outflows.filter (·.asset = asset) = s.outflows.filter (·.asset = asset) := by
  obtain ⟨new, hnew, hasset⟩ := h.outflows
  have hnone : new.filter (·.asset = asset) = [] := by
    rw [List.filter_eq_nil_iff]
    intro o ho heq
    rw [decide_eq_true_iff] at heq
    exact ha ((hasset o ho).symm.trans heq)
  rw [hnew, List.filter_append, hnone, List.append_nil]

/-- Only the payout moves the record of outflows; the debit moves one holding. -/
theorem touches_of_payOut {a : Address} {h : Holding} {total amount : ℤ}
    {payments : List Payment} {s₀ s₁ s₂ : State World} (hdebit : debit s₀ a h amount = .ok s₁)
    (hpay : payOut H s₁ a total payments = .ok s₂) : Touches s₀ s₂.unlock a := by
  have hs₁ := debit_ok hdebit
  obtain ⟨w, _, _, rfl⟩ := payOut_ok hpay
  subst hs₁
  refine ⟨fun b hb => Function.update_of_ne hb _ _, _, rfl, ?_⟩
  simp

theorem settleWithdrawal_touches {t : Treasury} {caller a payee : Address} {amount : ℤ}
    (h : settleWithdrawal H env s t caller a payee amount = .ok s') : Touches s s' a := by
  obtain ⟨w₁, w₂, allowance, s₁, s₂, _, _, _, _, hdebit, hpay, rfl⟩ := settleWithdrawal_steps h
  have htouches := touches_of_payOut hdebit hpay
  exact ⟨htouches.holding, htouches.outflows⟩

theorem settleBatch_touches {t : Treasury} {caller a : Address} {payments : List Payment}
    (h : settleBatch H env s t caller a payments = .ok s') : Touches s s' a := by
  obtain ⟨w₁, w₂, s₁, s₂, _, _, hdebit, hpay, rfl⟩ := settleBatch_steps h
  have htouches := touches_of_payOut hdebit hpay
  exact ⟨htouches.holding, htouches.outflows⟩

/-- What a route left of an asset that is not approved: everything, unless the call is
a batch transfer of it. -/
theorem Route.untouched {call : Call} (h : Route H env s call s')
    (hrevoked : s.approvedAsset asset = false)
    (hother : ∀ caller payments, call ≠ .batchTransfer caller asset payments) :
    s'.holding asset = s.holding asset ∧
      s'.outflows.filter (·.asset = asset) = s.outflows.filter (·.asset = asset) := by
  -- an approved asset is another one
  have hne : ∀ a, s.approvedAsset a = true → a ≠ asset := by
    rintro a happroved rfl
    rw [happroved] at hrevoked
    cases hrevoked
  have htouched : ∀ a, Touches s s' a → a ≠ asset → s'.holding asset = s.holding asset ∧
      s'.outflows.filter (·.asset = asset) = s.outflows.filter (·.asset = asset) :=
    fun a htouches ha => ⟨htouches.holding asset ha.symm, htouches.filter_outflows ha⟩
  cases h with
  | quiet hquiet => exact ⟨hquiet.holding asset hrevoked, by rw [hquiet.outflows]⟩
  | withdraw _ happroved hsettle =>
      exact htouched _ (settleWithdrawal_touches hsettle) (hne _ happroved)
  | @batch caller a payments _ _ _ hsettle =>
      refine htouched _ (settleBatch_touches hsettle) ?_
      rintro rfl
      exact hother caller payments rfl
  | executed _ _ happroved _ hsettle =>
      have htouches := settleWithdrawal_touches hsettle
      exact htouched _ ⟨htouches.holding, htouches.outflows⟩ (hne _ happroved)
  | executedBatch _ _ happroved _ hsettle =>
      have htouches := settleBatch_touches hsettle
      exact htouched _ ⟨htouches.holding, htouches.outflows⟩ (hne _ happroved)
  | released _ _ happroved hdebit hpay =>
      have htouches := touches_of_payOut hdebit hpay
      exact htouched _ ⟨htouches.holding, htouches.outflows⟩ (hne _ happroved)

/-! ## What a call does with the token -/

section Replaced

variable {balance : World → Address → Except TokenFailure ℤ}
  {transfer : World → Address → Address → ℤ → Except TokenFailure World} {a : Address}

theorem deposit_replaceToken (hrevoked : s.approvedAsset asset = false) (src : Address)
    (amount : ℤ) :
    deposit (H.replaceToken asset balance transfer) env s src a amount
      = deposit H env s src a amount := by
  unfold deposit
  refine bind_congr_ok fun _ _ => bind_congr_ok fun _ _ => bind_congr_ok fun t _ =>
    bind_congr_ok fun _ _ => bind_congr_ok fun _ happroved => bind_congr_ok fun _ _ =>
    bind_congr_ok fun s₁ _ => ?_
  have ha := ne_of_approved hrevoked happroved
  rw [custodyOrTrap_replaceToken ha]
  refine bind_congr_ok fun before _ => ?_
  show (_ >>= _) = _
  rw [transferOrTrap_replaceToken ha]
  refine bind_congr_ok fun w _ => ?_
  rw [custodyOrTrap_replaceToken ha]

theorem withdraw_replaceToken (hrevoked : s.approvedAsset asset = false) (caller payee : Address)
    (amount : ℤ) :
    withdraw (H.replaceToken asset balance transfer) env s caller a payee amount
      = withdraw H env s caller a payee amount := by
  unfold withdraw
  refine bind_congr_ok fun _ _ => bind_congr_ok fun _ _ => bind_congr_ok fun _ _ =>
    bind_congr_ok fun t _ => bind_congr_ok fun _ _ => bind_congr_ok fun _ happroved =>
    bind_congr_ok fun _ _ => bind_congr_ok fun _ _ => ?_
  exact settleWithdrawal_replaceToken (ne_of_approved hrevoked happroved) ..

theorem executeWithdrawal_replaceToken (hrevoked : s.approvedAsset asset = false)
    (caller : Address) (id : ℕ) :
    executeWithdrawal (H.replaceToken asset balance transfer) env s caller id
      = executeWithdrawal H env s caller id := by
  unfold executeWithdrawal
  refine bind_congr_ok fun _ _ => bind_congr_ok fun _ _ => bind_congr_ok fun t _ =>
    bind_congr_ok fun _ _ => bind_congr_ok fun p _ => bind_congr_ok fun _ _ =>
    bind_congr_ok fun _ _ => bind_congr_ok fun _ _ => bind_congr_ok fun _ happroved =>
    bind_congr_ok fun _ _ => ?_
  have ha := ne_of_approved hrevoked happroved
  dsimp only
  rw [settleWithdrawal_replaceToken ha, settleBatch_replaceToken ha]

theorem releaseNextMilestone_replaceToken (hrevoked : s.approvedAsset asset = false)
    (caller : Address) (id : ℕ) :
    releaseNextMilestone (H.replaceToken asset balance transfer) env s caller id
      = releaseNextMilestone H env s caller id := by
  unfold releaseNextMilestone transferOut
  refine bind_congr_ok fun _ _ => bind_congr_ok fun t _ => bind_congr_ok fun _ _ =>
    bind_congr_ok fun s₁ hlock => bind_congr_ok fun d _ => bind_congr_ok fun _ _ =>
    bind_congr_ok fun _ happroved => bind_congr_ok fun amount _ => bind_congr_ok fun w _ =>
    bind_congr_ok fun _ _ => bind_congr_ok fun s₂ _ => ?_
  obtain rfl := lock_ok hlock
  rw [payOut_replaceToken (ne_of_approved hrevoked happroved)]

/-- A batch transfer that stops at one of its own checks never asks the token. -/
theorem batchTransfer_replaceToken {caller : Address} {payments : List Payment}
    (hstops : a = asset → ¬ ReachesToken H env s caller asset payments) :
    batchTransfer (H.replaceToken asset balance transfer) env s caller a payments
      = batchTransfer H env s caller a payments := by
  unfold batchTransfer
  refine bind_congr_ok fun _ hsize => bind_congr_ok fun _ hpaused => bind_congr_ok fun _ hfrozen =>
    bind_congr_ok fun t hadmin => bind_congr_ok fun _ hactive => bind_congr_ok fun total hsum =>
    bind_congr_ok fun _ hcovered => bind_congr_ok fun _ hverified =>
    bind_congr_ok fun _ hunlocked => ?_
  by_cases ha : a = asset
  · unfold settleBatch
    refine bind_congr_ok fun total' hsum' => bind_congr_ok fun s₁ hlock => ?_
    rw [checkPolicies_replaceToken]
    refine bind_congr_ok fun w₁ hpolicies => bind_congr_ok fun w₂ hbudget =>
      bind_congr_ok fun s₂ hdebit => ?_
    subst ha
    rw [sumPayments_of_sumPositivePayments hsum, Except.ok.injEq] at hsum'
    subst hsum'
    rw [require_eq_ok] at hcovered
    exact absurd ⟨t, total, s₁, w₁, w₂, s₂, hsize, hpaused, hfrozen, hadmin, hactive, hsum,
      hcovered, hverified, hunlocked, hlock, hpolicies, hbudget, hdebit⟩ (hstops rfl)
  · exact settleBatch_replaceToken ha ..

theorem exec_replaceToken (hrevoked : s.approvedAsset asset = false) {call : Call}
    (hstops : StopsBatch H env s asset call) :
    exec (H.replaceToken asset balance transfer) env s call = exec H env s call := by
  cases call with
  | deposit src b amount => exact deposit_replaceToken hrevoked ..
  | withdraw caller b payee amount => exact withdraw_replaceToken hrevoked ..
  | batchTransfer caller b payments =>
      refine batchTransfer_replaceToken ?_
      rintro rfl
      exact hstops caller payments rfl
  | executeWithdrawal caller id => exact executeWithdrawal_replaceToken hrevoked ..
  | releaseNextMilestone caller id => exact releaseNextMilestone_replaceToken hrevoked ..
  | _ => rfl

end Replaced

/-- A batch transfer that returned asked the token. -/
theorem reachesToken_of_batchTransfer {caller : Address} {payments : List Payment}
    (h : batchTransfer H env s caller asset payments = .ok s') :
    ReachesToken H env s caller asset payments := by
  simp only [batchTransfer, settleBatch, bind_eq_ok, require_eq_ok] at h
  obtain ⟨_, hsize, _, hpaused, _, hfrozen, t, hadmin, _, hactive, total, hsum, _, hcovered, _,
    hverified, _, hunlocked, total', hsum', s₁, hlock, w₁, hpolicies, w₂, hbudget, s₂, hdebit,
    _⟩ := h
  rw [sumPayments_of_sumPositivePayments hsum, Except.ok.injEq] at hsum'
  subst hsum'
  exact ⟨t, total, s₁, w₁, w₂, s₂, hsize, hpaused, hfrozen, hadmin, hactive, hsum, hcovered,
    hverified, hunlocked, hlock, hpolicies, hbudget, hdebit⟩

/-- A payout in a token that cannot tell its balance. -/
theorem payOut_silent (total : ℤ) (payments : List Payment)
    (transfer : World → Address → Address → ℤ → Except TokenFailure World) :
    payOut (H.replaceToken asset (fun _ _ => .error .other) transfer) s asset total payments
      = .error .trap := by
  have hcustody : (H.replaceToken asset (fun _ _ => .error .other) transfer).custodyOrTrap s.world
      asset = .error .trap := by
    simp [TokenHost.custodyOrTrap, TreasuryHost.replaceToken]
  rw [payOut, hcustody]
  rfl

/-- A payout in a token in which the treasury holds nothing. -/
theorem payOut_empty {total : ℤ} (htotal : 0 < total) (payments : List Payment)
    (transfer : World → Address → Address → ℤ → Except TokenFailure World) :
    payOut (H.replaceToken asset (fun _ _ => .ok 0) transfer) s asset total payments
      = .error (.error .insufficientFunds) := by
  have hcustody : (H.replaceToken asset (fun _ _ => .ok 0) transfer).custodyOrTrap s.world asset
      = .ok 0 := by
    simp [TokenHost.custodyOrTrap, TreasuryHost.replaceToken]
  rw [payOut, hcustody, ok_bind, require_neg (not_le.2 htotal)]
  rfl

/-- **Which calls leave a token alone.**  Of an asset that is not approved, every call
but a batch transfer whose own checks pass. -/
theorem leavesAlone_iff (hrevoked : s.approvedAsset asset = false) {call : Call} :
    LeavesAlone H env s call asset ↔ StopsBatch H env s asset call := by
  constructor
  · rintro halone caller payments rfl hreaches
    -- a token that cannot tell its balance, and one in which the treasury has none
    obtain ⟨s₂, total, htotal, hbatch⟩ := batchTransfer_of_reachesToken hreaches
    let still : World → Address → Address → ℤ → Except TokenFailure World := fun w _ _ _ => .ok w
    have hsilent := halone.token (fun _ _ => .error .other) still
    have hempty := halone.token (fun _ _ => .ok 0) still
    have hagree := hsilent.trans hempty.symm
    simp only [exec, hbatch] at hagree
    rw [payOut_silent, payOut_empty htotal] at hagree
    cases hagree
  · intro hstops
    have hkeeps : ∀ s', exec H env s call = .ok s' → s'.holding asset = s.holding asset ∧
        s'.outflows.filter (·.asset = asset) = s.outflows.filter (·.asset = asset) := by
      intro s' h
      refine (exec_route h).untouched hrevoked ?_
      rintro caller payments rfl
      exact hstops caller payments rfl (reachesToken_of_batchTransfer h)
    exact ⟨fun _ _ => exec_replaceToken hrevoked hstops, fun s' h => (hkeeps s' h).1,
      fun s' h => (hkeeps s' h).2⟩

/-! ## Over whole runs -/

/-- No batch transfer of `asset` gets through while it is not approved. -/
def stopsBatches (H : TreasuryHost World) (asset : Address) : Inputs H → State World → Prop
  | .invoke env call, s => s.approvedAsset asset = false → StopsBatch H env s asset call
  | .outside _ _, _ => True

/-- Nothing of the asset was booked or paid out since. -/
structure Withheld (asset : Address) (s s' : State World) : Prop where
  holding : s'.holding asset = s.holding asset
  outflows : s'.outflows.filter (·.asset = asset) = s.outflows.filter (·.asset = asset)

theorem Withheld.trans {s₁ s₂ s₃ : State World} (h : Withheld asset s₁ s₂)
    (h' : Withheld asset s₂ s₃) : Withheld asset s₁ s₃ :=
  ⟨h'.holding.trans h.holding, h'.outflows.trans h.outflows⟩

/-- A step in which the asset is not approved withholds it. -/
theorem withheld_of_revoked {i : Inputs H} (hrevoked : s.approvedAsset asset = false)
    (hallow : stopsBatches H asset i s) (hstep : Step H i s s') : Withheld asset s s' := by
  cases i with
  | invoke env call =>
      have halone : LeavesAlone H env s call asset := (leavesAlone_iff hrevoked).2 (hallow hrevoked)
      exact ⟨halone.holding s' hstep, halone.outflows s' hstep⟩
  | outside time w =>
      obtain ⟨_, rfl⟩ := hstep
      exact ⟨rfl, rfl⟩

/-- **The whitelist.**  A call leaves alone a token that is not approved exactly when it
is no batch transfer of it that passes its own checks; and as long as no such batch
transfer is made, nothing of a revoked asset is paid out until it is approved again. -/
theorem whitelist (H : TreasuryHost World) :
    (∀ s (env : Env H.self) call asset, Reachable H s → s.approvedAsset asset = false →
      (LeavesAlone H env s call asset ↔ StopsBatch H env s asset call)) ∧
    (∀ asset tr₁ tr₂ s t, (machine H).Path (stopsBatches H asset) (tr₁ ++ tr₂) s t →
      (∀ e ∈ tr₂, e.pre.approvedAsset asset = false) → ∀ e ∈ tr₂, Withheld asset e.pre s) := by
  constructor
  · intro s env call asset _ hrevoked
    exact leavesAlone_iff hrevoked
  · intro asset tr₁ tr₂ s t hpath hrevoked
    refine hpath.since (R := Withheld asset) (fun _ _ _ => Withheld.trans) ?_
    intro e he
    obtain ⟨_, _, _, _, _, hallow, hstep, _⟩ := hpath.entry (List.mem_append_right _ he)
    exact withheld_of_revoked (hrevoked e he) hallow hstep

/-! ## Two runs -/

/-- A treasury that holds 100 of a token whose approval was revoked. -/
def revoked : Script Call :=
  opening ++ [(signedBy 1 [0], .removeApprovedAsset (.account 0) (.contract 7))]

def lateApproval : Script Call :=
  [(signedBy 2 [0], .addApprovedAsset (.account 0) (.contract 8))]

/-- The revoked token takes no part in a withdrawal, and another one's
approval keeps it. -/
theorem whitelist_withdraw :
    let s := play (deployed (funded 0)) revoked
    LeavesAlone referenceHost (signedBy 2 [0]) s
        (.withdraw (.account 0) (.contract 7) (.account 2) 60) (.contract 7) ∧
      Withheld (.contract 7) s (play s lateApproval) := by
  have hwhitelist := whitelist referenceHost
  have hfresh : Fresh referenceHost (deployed (funded 0)) := funded_fresh le_rfl
  have hstart : (machine referenceHost).Path (stopsBatches referenceHost (.contract 7)) []
      (deployed (funded 0)) 0 := .start hfresh
  have hallow : (deployment referenceHost).AllAllowed (stopsBatches referenceHost (.contract 7))
      (deployed (funded 0)) revoked := by
    refine ⟨?_, ?_, ?_, ?_, trivial⟩ <;> rintro _ _ _ ⟨⟩
  have hpath := Deployment.path_play hstart rfl hallow
  have hplays : (deployment referenceHost).plays (play (deployed (funded 0)) revoked) 1
      lateApproval = true := rfl
  have hpath' := Deployment.path_play hpath hplays ⟨by rintro _ _ _ ⟨⟩, trivial⟩
  refine ⟨(hwhitelist.1 _ _ _ _ hpath.reachable rfl).2 (by rintro _ _ ⟨⟩), ?_⟩
  refine hwhitelist.2 _ _ _ _ _ hpath' ?_ _ (List.mem_singleton_self _)
  intro e he
  obtain rfl := List.mem_singleton.1 he
  rfl

/-- **A batch transfer pays out a revoked asset.**  It sends 60 of the 100. -/
theorem not_whitelist :
    ¬ ∀ s (env : Env referenceHost.self) call asset, Reachable referenceHost s →
      s.approvedAsset asset = false → LeavesAlone referenceHost env s call asset := by
  intro h
  have hreach : Reachable referenceHost (play (deployed (funded 0)) revoked) :=
    Deployment.reachable_play (funded_fresh le_rfl) rfl
  have halone := h _ (signedBy 2 [0])
    (.batchTransfer (.account 0) (.contract 7) [⟨.account 2, 60⟩]) (.contract 7) hreach rfl
  have houtflows := halone.outflows _ rfl
  revert houtflows
  decide

end TreasuryContract
end Astroid
