import Astroid.Treasury.Books

/-!
# What a successful treasury call did

Every call that returns is one of five things (`exec_effect`): a configuration
change, a request that was queued, a request that was cancelled, a deposit, or a
payout that passed the gates of its entrypoint.  No later proof unfolds an
entrypoint again.
-/

namespace Astroid
namespace TreasuryContract

open Outcome

variable {World : Type} {H : TreasuryHost World} {env : Env H.self} {s s' : State World}

/-- What the legs of a payout add up to. -/
def paymentsTotal (payments : List Payment) : ℤ := (payments.map (·.amount)).sum

/-- The legs a queued request pays. -/
def PendingWithdrawal.legs (p : PendingWithdrawal) : List Payment :=
  if p.payments = [] then [⟨p.payee, p.amount⟩] else p.payments

/-- The circuit breaker is engaged and inside its window. -/
def State.Paused (s : State World) (now : UInt64) : Prop :=
  ∃ t, s.treasury = some t ∧ t.PauseIsActive now

/-! ## Calls into other contracts -/

variable (H) in
/-- Some calls into policies and budgets. -/
def Consults (env : Env H.self) : World → World → Prop :=
  Relation.ReflTransGen fun w w' =>
    (∃ policy id asset payee amount,
        H.checkTransfer env w policy id asset payee amount = some w') ∨
      ∃ budget caller id amount, H.consume env w budget caller id amount = some w'

variable (H) in
/-- Some transfers of one asset. -/
def Moves (asset : Address) : World → World → Prop :=
  Relation.ReflTransGen fun w w' => ∃ src dst amount, H.transfer w asset src dst amount = .ok w'

theorem checkPolicy_ok {w w' : World} {t : Treasury} {asset payee : Address} {amount : ℤ}
    (h : checkPolicy H env w t asset payee amount = .ok w') : Consults H env w w' := by
  unfold checkPolicy at h
  split at h
  · rw [orFail_eq_ok] at h
    exact .single (.inl ⟨_, _, _, _, _, h⟩)
  · cases h
    exact .refl

theorem checkPolicies_ok {w w' : World} {t : Treasury} {asset : Address}
    {payments : List Payment} (h : checkPolicies H env w t asset payments = .ok w') :
    Consults H env w w' := by
  induction payments generalizing w with
  | nil =>
      cases h
      exact .refl
  | cons payment rest ih =>
      simp only [checkPolicies, bind_eq_ok] at h
      obtain ⟨w₁, hpolicy, hrest⟩ := h
      exact (checkPolicy_ok hpolicy).trans (ih hrest)

theorem consumeBudget_ok {w w' : World} {t : Treasury} {h : Holding} {caller : Address}
    {amount : ℤ} (hc : consumeBudget H env w t h caller amount = .ok w') :
    Consults H env w w' := by
  unfold consumeBudget at hc
  split at hc
  · rw [orFail_eq_ok] at hc
    exact .single (.inr ⟨_, _, _, _, hc⟩)
  · cases hc
    exact .refl

theorem sendPayments_ok {w w' : World} {asset : Address} {payments : List Payment}
    (h : sendPayments H asset w payments = .ok w') : Moves H asset w w' := by
  induction payments generalizing w with
  | nil =>
      cases h
      exact .refl
  | cons payment rest ih =>
      simp only [sendPayments, bind_eq_ok, TokenHost.transferOrTrap_eq_ok] at h
      obtain ⟨w₁, htransfer, hrest⟩ := h
      exact .head ⟨_, _, _, htransfer⟩ (ih hrest)

/-! ## Roles and sums -/

theorem requireAdmin_ok {caller : Address} {t : Treasury}
    (h : requireAdmin H env s caller = .ok t) :
    s.treasury = some t ∧ t.admin = caller ∧ caller ∈ env.auths := by
  simp only [requireAdmin, State.load, bind_eq_ok, okOr_eq_ok, require_eq_ok, requireAuth_eq_ok,
    pure_eq_ok] at h
  obtain ⟨_, hload, _, hadmin, _, hauth, rfl⟩ := h
  exact ⟨hload, hadmin, hauth⟩

theorem requireNotPaused_ok {u : Unit} (h : requireNotPaused H env s = .ok u) :
    ¬ s.Paused env.timestamp := by
  simp only [requireNotPaused, State.load, bind_eq_ok, okOr_eq_ok, require_eq_ok] at h
  obtain ⟨t, hload, hactive⟩ := h
  rintro ⟨t', ht', hpaused⟩
  rw [hload, Option.some.injEq] at ht'
  subst ht'
  exact hactive hpaused

@[simp] theorem checkFrozen_eq_ok {u : Unit} : s.checkFrozen = .ok u ↔ s.frozen = false :=
  require_eq_ok

@[simp] theorem requireApprovedAsset_eq_ok {a : Address} {u : Unit} :
    s.requireApprovedAsset a = .ok u ↔ s.approvedAsset a = true :=
  require_eq_ok

@[simp] theorem requireNotTimeLocked_eq_ok {amount : ℤ} {u : Unit} :
    s.requireNotTimeLocked amount = .ok u ↔ ¬ s.loadTimeLock.Applies amount :=
  require_eq_ok

@[simp] theorem requireTimeLockApplies_eq_ok {amount : ℤ} {u : Unit} :
    s.requireTimeLockApplies amount = .ok u ↔ s.loadTimeLock.Applies amount :=
  require_eq_ok

theorem lock_ok (h : s.lock = .ok s') : s' = { s with reentrancyLock := true } := by
  simp only [State.lock, bind_eq_ok, require_eq_ok, pure_eq_ok] at h
  obtain ⟨_, _, rfl⟩ := h
  rfl

theorem sumPayments_ok {total r : ℤ} {payments : List Payment}
    (h : sumPayments total payments = .ok r) : r = total + paymentsTotal payments := by
  induction payments generalizing total with
  | nil =>
      cases h
      simp [paymentsTotal]
  | cons payment rest ih =>
      simp only [sumPayments, bind_eq_ok, checkedAdd_eq_ok] at h
      obtain ⟨_, ⟨_, rfl⟩, hrest⟩ := h
      rw [ih hrest]
      simp [paymentsTotal, add_assoc]

theorem sumPositivePayments_ok {total r : ℤ} {payments : List Payment}
    (h : sumPositivePayments total payments = .ok r) :
    r = total + paymentsTotal payments ∧ ∀ p ∈ payments, 0 < p.amount := by
  induction payments generalizing total with
  | nil =>
      cases h
      simp [paymentsTotal]
  | cons payment rest ih =>
      simp only [sumPositivePayments, bind_eq_ok, requirePositiveAmount_eq_ok,
        checkedAdd_eq_ok] at h
      obtain ⟨_, hpos, _, ⟨_, rfl⟩, hrest⟩ := h
      obtain ⟨hsum, hall⟩ := ih hrest
      refine ⟨?_, List.forall_mem_cons.2 ⟨hpos, hall⟩⟩
      rw [hsum]
      simp [paymentsTotal, add_assoc]

/-! ## Payouts -/

/-- A payout of `payments` in `asset`: policies and budgets are consulted, then
custody falls by exactly the total, and the books and the record of outflows say
so. -/
structure Paid (H : TreasuryHost World) (env : Env H.self) (s s' : State World) (asset : Address)
    (payments : List Payment) : Prop where
  world : ∃ w, Consults H env s.world w ∧ Moves H asset w s'.world ∧
    H.custody w asset - paymentsTotal payments = H.custody s'.world asset
  books : s'.books = s.books.pay asset (paymentsTotal payments)
  outflows : s'.outflows = s.outflows ++ payments.map fun p => ⟨asset, p.recipient, p.amount⟩
  timeLock : s'.withdrawalTimeLock = s.withdrawalTimeLock
  pending : s'.pendingWithdrawal = s.pendingWithdrawal
  pendingCount : s'.pendingWithdrawalCount = s.pendingWithdrawalCount

theorem consumeAllowance_ok {id : AllowanceId} {amount : ℤ}
    (h : consumeAllowance H env s id amount = .ok s') :
    ∃ allowance, s' = { s with allowance := allowance } := by
  unfold consumeAllowance at h
  split at h
  · cases h
    exact ⟨s.allowance, rfl⟩
  · simp only [bind_eq_ok, pure_eq_ok] at h
    obtain ⟨_, _, _, _, _, _, _, _, rfl⟩ := h
    exact ⟨_, rfl⟩

/-- What `debit` leaves. -/
theorem debit_ok {asset : Address} {h : Holding} {amount : ℤ}
    (hd : debit s asset h amount = .ok s') :
    s' = (s.storeHolding asset { h with
      totalIn := h.totalIn - amount
      totalOut := h.totalOut + amount }).storeAssetBalance asset (h.totalIn - amount) := by
  simp only [debit, bind_eq_ok, checkedSub_eq_ok, checkedAdd_eq_ok, pure_eq_ok] at hd
  obtain ⟨_, ⟨_, rfl⟩, _, ⟨_, rfl⟩, rfl⟩ := hd
  rfl

/-- A debit of the recorded holding is a payment out of the books. -/
theorem books_debit {asset : Address} {amount : ℤ} (h : Holding) (hh : h = s.loadHolding asset) :
    ((s.storeHolding asset { h with
      totalIn := h.totalIn - amount
      totalOut := h.totalOut + amount }).storeAssetBalance asset (h.totalIn - amount)).books
      = s.books.pay asset amount := by
  subst hh
  ext a <;> by_cases ha : a = asset
  all_goals simp [State.books, Books.pay, State.loadHolding, State.storeHolding,
    State.storeAssetBalance, ha]

theorem payOut_ok {asset : Address} {total : ℤ} {payments : List Payment}
    (h : payOut H s asset total payments = .ok s') :
    ∃ w, Moves H asset s.world w ∧ H.custody s.world asset - total = H.custody w asset ∧
      s' = { s with
        world := w
        outflows := s.outflows ++ payments.map fun p => ⟨asset, p.recipient, p.amount⟩ } := by
  simp only [payOut, bind_eq_ok, require_eq_ok, checkedSub_eq_ok, pure_eq_ok] at h
  obtain ⟨before, hbefore, _, _, w, hsend, after, hafter, _, ⟨_, rfl⟩, _, hpaid, rfl⟩ := h
  refine ⟨w, sendPayments_ok hsend, ?_, rfl⟩
  rw [H.custodyOrTrap_ok hbefore, H.custodyOrTrap_ok hafter]
  omega

/-- The tail of every outflow: what was consulted, then the debit and the measured
payout. -/
theorem paid_of_payOut {asset : Address} {payments : List Payment} {w : World}
    (allowance : AllowanceId → Option Allowance) {s₁ s₂ : State World}
    (hconsults : Consults H env s.world w)
    (hdebit : debit { s with reentrancyLock := true, world := w, allowance := allowance } asset
      (s.loadHolding asset) (paymentsTotal payments) = .ok s₁)
    (hpay : payOut H s₁ asset (paymentsTotal payments) payments = .ok s₂) :
    Paid H env s s₂.unlock asset payments := by
  have hs₁ := debit_ok hdebit
  obtain ⟨w', hmoves, hcustody, rfl⟩ := payOut_ok hpay
  subst hs₁
  refine ⟨⟨w, hconsults, hmoves, hcustody⟩, ?_, rfl, rfl, rfl, rfl⟩
  exact books_debit (s := s) (s.loadHolding asset) rfl

/-- The steps of a settled withdrawal. -/
theorem settleWithdrawal_steps {t : Treasury} {caller asset payee : Address} {amount : ℤ}
    (h : settleWithdrawal H env s t caller asset payee amount = .ok s') :
    ∃ w₁ w₂ allowance s₁ s₂, checkPolicy H env s.world t asset payee amount = .ok w₁ ∧
      consumeBudget H env w₁ t (s.loadHolding asset) caller amount = .ok w₂ ∧
      consumeAllowance H env { s with reentrancyLock := true, world := w₂ } ⟨caller, payee, asset⟩
        amount = .ok { s with reentrancyLock := true, world := w₂, allowance := allowance } ∧
      amount ≤ s.books.totalIn asset ∧
      debit { s with reentrancyLock := true, world := w₂, allowance := allowance } asset
        (s.loadHolding asset) amount = .ok s₁ ∧
      payOut H s₁ asset amount [⟨payee, amount⟩] = .ok s₂ ∧ s' = s₂.unlock := by
  simp only [settleWithdrawal, bind_eq_ok, require_eq_ok, pure_eq_ok] at h
  obtain ⟨_, hlock, w₁, hpolicy, w₂, hbudget, _, hallowance, _, hcovered, s₁, hdebit, s₂, hpay,
    rfl⟩ := h
  obtain rfl := lock_ok hlock
  obtain ⟨allowance, rfl⟩ := consumeAllowance_ok hallowance
  exact ⟨w₁, w₂, allowance, s₁, s₂, hpolicy, hbudget, hallowance, hcovered, hdebit, hpay, rfl⟩

/-- The steps of a settled batch. -/
theorem settleBatch_steps {t : Treasury} {caller asset : Address} {payments : List Payment}
    (h : settleBatch H env s t caller asset payments = .ok s') :
    ∃ w₁ w₂ s₁ s₂, checkPolicies H env s.world t asset payments = .ok w₁ ∧
      consumeBudget H env w₁ t (s.loadHolding asset) caller (paymentsTotal payments) = .ok w₂ ∧
      debit { s with reentrancyLock := true, world := w₂ } asset (s.loadHolding asset)
        (paymentsTotal payments) = .ok s₁ ∧
      payOut H s₁ asset (paymentsTotal payments) payments = .ok s₂ ∧ s' = s₂.unlock := by
  simp only [settleBatch, bind_eq_ok, pure_eq_ok] at h
  obtain ⟨total, hsum, _, hlock, w₁, hpolicy, w₂, hbudget, s₁, hdebit, s₂, hpay, rfl⟩ := h
  obtain rfl := lock_ok hlock
  have htotal := sumPayments_ok hsum
  rw [zero_add] at htotal
  subst htotal
  exact ⟨w₁, w₂, s₁, s₂, hpolicy, hbudget, hdebit, hpay, rfl⟩

theorem settleWithdrawal_ok {t : Treasury} {caller asset payee : Address} {amount : ℤ}
    (h : settleWithdrawal H env s t caller asset payee amount = .ok s') :
    amount ≤ s.books.totalIn asset ∧ Paid H env s s' asset [⟨payee, amount⟩] := by
  obtain ⟨w₁, w₂, allowance, s₁, s₂, hpolicy, hbudget, _, hcovered, hdebit, hpay, rfl⟩ :=
    settleWithdrawal_steps h
  have htotal : amount = paymentsTotal [⟨payee, amount⟩] := by simp [paymentsTotal]
  refine ⟨hcovered, ?_⟩
  rw [htotal] at hdebit hpay
  exact paid_of_payOut allowance ((checkPolicy_ok hpolicy).trans (consumeBudget_ok hbudget)) hdebit
    (by simpa [paymentsTotal] using hpay)

theorem settleBatch_ok {t : Treasury} {caller asset : Address} {payments : List Payment}
    (h : settleBatch H env s t caller asset payments = .ok s') :
    Paid H env s s' asset payments := by
  obtain ⟨w₁, w₂, s₁, s₂, hpolicy, hbudget, hdebit, hpay, rfl⟩ := settleBatch_steps h
  exact paid_of_payOut s.allowance
    ((checkPolicies_ok hpolicy).trans (consumeBudget_ok hbudget)) hdebit hpay

/-- The steps of a release. -/
theorem releaseNextMilestone_steps {caller : Address} {id : ℕ}
    (h : releaseNextMilestone H env s caller id = .ok s') :
    ∃ t d amount w s₁ s₂, ¬ s.Paused env.timestamp ∧ s.treasury = some t ∧
      s.milestone id = some d ∧ d.disbursed < d.milestones ∧ s.approvedAsset d.asset = true ∧
      d.due = .ok amount ∧
      consumeBudget H env s.world t (s.loadHolding d.asset) caller amount = .ok w ∧
      amount ≤ s.books.totalIn d.asset ∧
      debit { s.storeMilestone id { d with disbursed := d.disbursed + 1 } with
        reentrancyLock := true, world := w } d.asset (s.loadHolding d.asset) amount = .ok s₁ ∧
      transferOut H s₁ d.asset d.payee amount = .ok s₂ ∧ s' = s₂.unlock := by
  simp only [releaseNextMilestone, bind_eq_ok, okOr_eq_ok, requireApprovedAsset_eq_ok,
    require_eq_ok, pure_eq_ok] at h
  obtain ⟨_, hpaused, t, hadmin, _, _, _, hlock, d, hd, _, hleft, _, happroved, amount, hdue, w,
    hbudget, _, hcovered, s₁, hdebit, s₂, hpay, rfl⟩ := h
  obtain rfl := lock_ok hlock
  exact ⟨t, d, amount, w, s₁, s₂, requireNotPaused_ok hpaused, (requireAdmin_ok hadmin).1, hd,
    hleft, happroved, hdue, hbudget, hcovered, hdebit, hpay, rfl⟩

theorem releaseNextMilestone_ok {caller : Address} {id : ℕ}
    (h : releaseNextMilestone H env s caller id = .ok s') :
    ∃ d amount, ¬ s.Paused env.timestamp ∧ s.milestone id = some d ∧ d.disbursed < d.milestones ∧
      d.due = .ok amount ∧ amount ≤ s.books.totalIn d.asset ∧
      Paid H env s s' d.asset [⟨d.payee, amount⟩] := by
  obtain ⟨t, d, amount, w, s₁, s₂, hpaused, _, hd, hleft, _, hdue, hbudget, hcovered, hdebit, hpay,
    rfl⟩ := releaseNextMilestone_steps h
  refine ⟨d, amount, hpaused, hd, hleft, hdue, hcovered, ?_⟩
  have htotal : amount = paymentsTotal [⟨d.payee, amount⟩] := by simp [paymentsTotal]
  unfold transferOut at hpay
  rw [htotal] at hdebit hpay
  have hpaid := paid_of_payOut (s := s.storeMilestone id { d with disbursed := d.disbursed + 1 })
    s.allowance (consumeBudget_ok hbudget) hdebit (by simpa [paymentsTotal] using hpay)
  exact ⟨hpaid.world, hpaid.books, hpaid.outflows, hpaid.timeLock, hpaid.pending,
    hpaid.pendingCount⟩

/-- The steps of an executed request. -/
theorem executeWithdrawal_steps {caller : Address} {id : ℕ}
    (h : executeWithdrawal H env s caller id = .ok s') :
    ∃ t p, ¬ s.Paused env.timestamp ∧ s.frozen = false ∧ s.treasury = some t ∧
      s.pendingWithdrawal id = some p ∧ p.IsPending ∧ env.timestamp < p.expiresAt ∧
      p.executeAfter ≤ env.timestamp ∧ s.approvedAsset p.asset = true ∧
      (if p.payments = [] then
        settleWithdrawal H env (s.storePending id { p with executed := true }) t caller p.asset
          p.payee p.amount
      else
        settleBatch H env (s.storePending id { p with executed := true }) t caller p.asset
          p.payments) = .ok s' := by
  simp only [executeWithdrawal, bind_eq_ok, okOr_eq_ok, require_eq_ok, checkFrozen_eq_ok,
    requireApprovedAsset_eq_ok, requireTimeReached] at h
  obtain ⟨_, hpaused, _, hfrozen, t, hadmin, _, _, p, hp, _, hpending, _, hcurrent, _, hreached, _,
    happroved, _, _, h⟩ := h
  exact ⟨t, p, requireNotPaused_ok hpaused, hfrozen, (requireAdmin_ok hadmin).1, hp, hpending,
    hcurrent, hreached, happroved, h⟩

theorem executeWithdrawal_ok {caller : Address} {id : ℕ}
    (h : executeWithdrawal H env s caller id = .ok s') :
    ∃ p, ¬ s.Paused env.timestamp ∧ s.frozen = false ∧ s.pendingWithdrawal id = some p ∧
      p.IsPending ∧ p.executeAfter ≤ env.timestamp ∧
      (p.payments = [] → p.amount ≤ s.books.totalIn p.asset) ∧
      Paid H env (s.storePending id { p with executed := true }) s' p.asset p.legs := by
  obtain ⟨t, p, hpaused, hfrozen, _, hp, hpending, _, hreached, _, h⟩ := executeWithdrawal_steps h
  refine ⟨p, hpaused, hfrozen, hp, hpending, hreached, ?_⟩
  split at h
  · rename_i hsingle
    obtain ⟨hcovered, hpaid⟩ := settleWithdrawal_ok h
    refine ⟨fun _ => hcovered, ?_⟩
    rw [PendingWithdrawal.legs, if_pos hsingle]
    exact hpaid
  · rename_i hbatch
    refine ⟨fun hsingle => absurd hsingle hbatch, ?_⟩
    rw [PendingWithdrawal.legs, if_neg hbatch]
    exact settleBatch_ok h

/-! ## Every call -/

/-- The gates a direct payout passed, by entrypoint. -/
inductive Gated (s : State World) : Call → Address → List Payment → Prop
  | withdraw {caller asset payee : Address} {amount : ℤ} : s.frozen = false → 0 < amount →
      ¬ s.loadTimeLock.Applies amount → amount ≤ s.books.totalIn asset →
      Gated s (.withdraw caller asset payee amount) asset [⟨payee, amount⟩]
  | batch {caller asset : Address} {payments : List Payment} : s.frozen = false →
      (∀ p ∈ payments, 0 < p.amount) → ¬ s.loadTimeLock.Applies (paymentsTotal payments) →
      paymentsTotal payments ≤ s.books.totalIn asset →
      Gated s (.batchTransfer caller asset payments) asset payments
  | milestone {caller : Address} {id : ℕ} {d : MilestoneDisbursement} {amount : ℤ} :
      s.milestone id = some d → d.disbursed < d.milestones → d.due = .ok amount →
      amount ≤ s.books.totalIn d.asset →
      Gated s (.releaseNextMilestone caller id) d.asset [⟨d.payee, amount⟩]

/-- A lock that captures anything has a positive threshold. -/
def WithdrawalTimeLock.Sensible (lock : WithdrawalTimeLock) : Prop :=
  0 < lock.delay → 0 < lock.threshold

/-- A configuration change: no value moved and no request was touched. -/
structure Same (s s' : State World) : Prop where
  world : s'.world = s.world
  books : s'.books = s.books
  outflows : s'.outflows = s.outflows
  timeLock : s.loadTimeLock.Sensible → s'.loadTimeLock.Sensible
  pending : s'.pendingWithdrawal = s.pendingWithdrawal
  pendingCount : s'.pendingWithdrawalCount = s.pendingWithdrawalCount

/-- The asset and the legs a queueing call asks for. -/
def Call.request : Call → Option (Address × List Payment)
  | .queueWithdrawal _ asset payee amount => some (asset, [⟨payee, amount⟩])
  | .queueBatchTransfer _ asset payments => some (asset, payments)
  | _ => none

/-- What a call that returned did. -/
inductive Effect (H : TreasuryHost World) (env : Env H.self) (s : State World) (call : Call)
    (s' : State World) : Prop
  | configured : Same s s' → Effect H env s call s'
  | queued (p : PendingWithdrawal) : call.request = some (p.asset, p.legs) →
      s.loadTimeLock.Applies (paymentsTotal p.legs) → p.requestedAt = env.timestamp →
      p.executeAfter.toNat = env.timestamp.toNat + s.loadTimeLock.delay.toNat → p.IsPending →
      s' = { s.storePending (s.pendingWithdrawalCount + 1) p with
        pendingWithdrawalCount := s.pendingWithdrawalCount + 1 } → Effect H env s call s'
  | cancelled (caller : Address) (id : ℕ) (p : PendingWithdrawal) :
      call = .cancelWithdrawal caller id → s.pendingWithdrawal id = some p → p.IsPending →
      s' = s.storePending id { p with cancelled := true } → Effect H env s call s'
  | deposited (src asset : Address) (amount received : ℤ) : call = .deposit src asset amount →
      0 < received → H.transfer s.world asset src H.self amount = .ok s'.world →
      H.custody s'.world asset = H.custody s.world asset + received →
      s'.books = s.books.credit asset received → s'.outflows = s.outflows →
      s'.withdrawalTimeLock = s.withdrawalTimeLock →
      s'.pendingWithdrawal = s.pendingWithdrawal →
      s'.pendingWithdrawalCount = s.pendingWithdrawalCount → Effect H env s call s'
  | paid (asset : Address) (payments : List Payment) : ¬ s.Paused env.timestamp →
      Gated s call asset payments → Paid H env s s' asset payments → Effect H env s call s'
  | executed (caller : Address) (id : ℕ) (p : PendingWithdrawal) :
      call = .executeWithdrawal caller id → ¬ s.Paused env.timestamp → s.frozen = false →
      s.pendingWithdrawal id = some p → p.IsPending → p.executeAfter ≤ env.timestamp →
      (p.payments = [] → p.amount ≤ s.books.totalIn p.asset) →
      Paid H env (s.storePending id { p with executed := true }) s' p.asset p.legs →
      Effect H env s call s'

/-! ## The entrypoints -/

/-- The calls that write the record of the treasury or the freeze alone. -/
def Call.Configures : Call → Prop
  | .initializeContract .. | .setRegistry .. | .setPolicy .. | .setBudget .. | .setMultisig ..
  | .setGuardian .. | .freeze .. | .unfreeze .. | .pause .. | .unpause .. => True
  | _ => False

theorem configure_ok {caller : Address} {update : Treasury → Treasury}
    (h : configure H env s caller update = .ok s') : ∃ t, s' = s.store t := by
  simp only [configure, bind_eq_ok, pure_eq_ok] at h
  obtain ⟨t, _, rfl⟩ := h
  exact ⟨_, rfl⟩

theorem exec_configures {call : Call} (hcall : call.Configures) (h : exec H env s call = .ok s') :
    ∃ treasury frozen, s' = { s with treasury := treasury, frozen := frozen } := by
  cases call with
  | initializeContract =>
      simp only [exec, initializeContract, bind_eq_ok, pure_eq_ok] at h
      obtain ⟨_, _, _, _, _, _, rfl⟩ := h
      exact ⟨_, _, rfl⟩
  | setRegistry | setPolicy | setBudget | setMultisig | setGuardian =>
      obtain ⟨t, rfl⟩ := configure_ok h
      exact ⟨_, _, rfl⟩
  | freeze =>
      simp only [exec, freeze, bind_eq_ok, pure_eq_ok] at h
      obtain ⟨_, _, rfl⟩ := h
      exact ⟨_, _, rfl⟩
  | unfreeze =>
      simp only [exec, unfreeze, bind_eq_ok, pure_eq_ok] at h
      obtain ⟨_, _, _, _, rfl⟩ := h
      exact ⟨_, _, rfl⟩
  | pause =>
      simp only [exec, pause, bind_eq_ok, pure_eq_ok] at h
      obtain ⟨_, _, _, _, rfl⟩ := h
      exact ⟨_, _, rfl⟩
  | unpause =>
      simp only [exec, unpause, bind_eq_ok, pure_eq_ok] at h
      obtain ⟨_, _, _, _, rfl⟩ := h
      exact ⟨_, _, rfl⟩
  | _ => exact hcall.elim

theorem addApprovedAsset_ok {caller asset : Address}
    (h : addApprovedAsset H env s caller asset = .ok s') :
    s.approvedAsset asset = false ∧ s.approvedAssetList.length < maxTreasuryAssets ∧
      s' = { s with
        approvedAssetList := s.approvedAssetList ++ [asset]
        approvedAsset := Function.update s.approvedAsset asset true
        approvedAssetCount := (s.approvedAssetCount + 1) % 2 ^ 32 } := by
  simp only [addApprovedAsset, bind_eq_ok, require_eq_ok, pure_eq_ok] at h
  obtain ⟨_, _, _, hnew, _, hroom, rfl⟩ := h
  exact ⟨hnew, hroom, rfl⟩

theorem removeApprovedAsset_ok {caller asset : Address}
    (h : removeApprovedAsset H env s caller asset = .ok s') :
    s.approvedAsset asset = true ∧ s' = { s with
      approvedAsset := Function.update s.approvedAsset asset false
      approvedAssetList := s.approvedAssetList.erase asset
      approvedAssetCount := s.approvedAssetCount - 1 } := by
  simp only [removeApprovedAsset, bind_eq_ok, require_eq_ok, pure_eq_ok] at h
  obtain ⟨_, _, _, hlisted, rfl⟩ := h
  exact ⟨hlisted, rfl⟩

theorem allocateBudget_ok {admin asset : Address} {budgetId : String}
    (h : allocateBudget H env s admin asset budgetId = .ok s') :
    s.approvedAsset asset = true ∧
      s' = s.storeHolding asset { s.loadHolding asset with budgetId := some budgetId } := by
  simp only [allocateBudget, bind_eq_ok, requireApprovedAsset_eq_ok, pure_eq_ok] at h
  obtain ⟨_, _, _, _, _, happroved, rfl⟩ := h
  exact ⟨happroved, rfl⟩

theorem setAllowance_ok {admin agent recipient asset : Address} {limit : ℤ} {expiresAt : UInt64}
    (h : setAllowance H env s admin agent recipient asset limit expiresAt = .ok s') :
    0 < limit ∧ s' = s.storeAllowance ⟨agent, recipient, asset⟩
      ⟨agent, recipient, asset, limit, 0, expiresAt⟩ := by
  simp only [setAllowance, bind_eq_ok, requirePositiveAmount_eq_ok, pure_eq_ok] at h
  obtain ⟨_, _, _, hpos, _, _, rfl⟩ := h
  exact ⟨hpos, rfl⟩

theorem removeAllowance_ok {admin agent recipient asset : Address}
    (h : removeAllowance H env s admin agent recipient asset = .ok s') :
    s' = { s with
      allowance := Function.update s.allowance ⟨agent, recipient, asset⟩ none } := by
  simp only [removeAllowance, bind_eq_ok, pure_eq_ok] at h
  obtain ⟨_, _, _, _, rfl⟩ := h
  rfl

theorem setWithdrawalTimeLock_ok {caller : Address} {delay : UInt64} {threshold : ℤ}
    (h : setWithdrawalTimeLock H env s caller delay threshold = .ok s') :
    ∃ lock : WithdrawalTimeLock, lock.Sensible ∧ s' = { s with withdrawalTimeLock := some lock } := by
  simp only [setWithdrawalTimeLock, bind_eq_ok] at h
  obtain ⟨_, _, h⟩ := h
  split at h
  · cases h
    refine ⟨_, ?_, rfl⟩
    intro hdelay
    exact absurd (show (0 : UInt64) < 0 from hdelay) (by decide)
  · simp only [bind_eq_ok, requirePositiveAmount_eq_ok, pure_eq_ok] at h
    obtain ⟨_, _, _, hpos, rfl⟩ := h
    exact ⟨_, fun _ => hpos, rfl⟩

/-- What `init_milestone_disbursement` checks and opens. -/
theorem initMilestoneDisbursement_ok {caller asset payee : Address} {totalAmount : ℤ}
    {milestones id : ℕ}
    (h : initMilestoneDisbursement H env s caller asset payee totalAmount milestones
      = .ok (id, s')) :
    0 < totalAmount ∧ milestones ≠ 0 ∧ totalAmount.tdiv milestones ≠ 0 ∧
      id = s.milestoneCount + 1 ∧ s' = { s.storeMilestone id
        ⟨totalAmount, milestones, 0, totalAmount.tdiv milestones, asset, payee⟩ with
          milestoneCount := id } := by
  simp only [initMilestoneDisbursement, bind_eq_ok, requirePositiveAmount_eq_ok, require_eq_ok,
    checkedDiv_eq_ok, pure_eq_ok, Prod.mk.injEq] at h
  obtain ⟨_, _, _, hpos, _, _, _, hmilestones, _, ⟨_, _, rfl⟩, _, hpart, _, _, rfl, rfl⟩ := h
  exact ⟨hpos, hmilestones, hpart, rfl, rfl⟩

/-- What a deposit measures and credits. -/
theorem deposit_ok {src asset : Address} {amount : ℤ}
    (h : deposit H env s src asset amount = .ok s') :
    ∃ w received, s.approvedAsset asset = true ∧ 0 < received ∧
      H.transfer s.world asset src H.self amount = .ok w ∧
      H.custody w asset = H.custody s.world asset + received ∧
      s' = ((({ s with
        reentrancyLock := true
        world := w
        credited := Function.update s.credited asset (s.credited asset + received) } :
          State World).storeHolding asset { s.loadHolding asset with
            totalIn := (s.loadHolding asset).totalIn + received }).storeAssetBalance asset
              ((s.loadHolding asset).totalIn + received)).unlock := by
  simp only [deposit, bind_eq_ok, require_eq_ok, requireApprovedAsset_eq_ok, checkedSub_eq_ok,
    checkedAdd_eq_ok, TokenHost.transferOrTrap_eq_ok, pure_eq_ok] at h
  obtain ⟨_, _, _, _, t, _, _, _, _, happroved, _, _, _, hlock, before, hbefore, w, htransfer, after,
    hafter, _, ⟨_, rfl⟩, _, hpos, _, _, _, ⟨_, rfl⟩, rfl⟩ := h
  obtain rfl := lock_ok hlock
  have hcustody : H.custody w asset = H.custody s.world asset + (after - before) := by
    have hb := H.custodyOrTrap_ok hbefore
    have ha := H.custodyOrTrap_ok hafter
    dsimp only at hb
    omega
  exact ⟨w, after - before, happroved, hpos, htransfer, hcustody, rfl⟩

/-- The gates of `withdraw`. -/
theorem withdraw_ok {caller asset payee : Address} {amount : ℤ}
    (h : withdraw H env s caller asset payee amount = .ok s') :
    ∃ t, s.treasury = some t ∧ 0 < amount ∧ ¬ s.Paused env.timestamp ∧ s.frozen = false ∧
      s.approvedAsset asset = true ∧ ¬ s.loadTimeLock.Applies amount ∧
      settleWithdrawal H env s t caller asset payee amount = .ok s' := by
  simp only [withdraw, bind_eq_ok, checkFrozen_eq_ok, requirePositiveAmount_eq_ok,
    requireApprovedAsset_eq_ok, requireNotTimeLocked_eq_ok] at h
  obtain ⟨_, hpos, _, hpaused, _, hfrozen, t, hadmin, _, _, _, happroved, _, _, _, hunlocked,
    hsettle⟩ := h
  exact ⟨t, (requireAdmin_ok hadmin).1, hpos, requireNotPaused_ok hpaused, hfrozen, happroved,
    hunlocked, hsettle⟩

/-- The gates of `batch_transfer`. -/
theorem batchTransfer_ok {caller asset : Address} {payments : List Payment}
    (h : batchTransfer H env s caller asset payments = .ok s') :
    ∃ t, s.treasury = some t ∧ ¬ s.Paused env.timestamp ∧ s.frozen = false ∧
      (∀ p ∈ payments, 0 < p.amount) ∧ paymentsTotal payments ≤ s.books.totalIn asset ∧
      ¬ s.loadTimeLock.Applies (paymentsTotal payments) ∧
      settleBatch H env s t caller asset payments = .ok s' := by
  simp only [batchTransfer, bind_eq_ok, checkFrozen_eq_ok, require_eq_ok,
    requireNotTimeLocked_eq_ok] at h
  obtain ⟨_, _, _, hpaused, _, hfrozen, t, hadmin, _, _, total, hsum, _, hcovered, _, _, _,
    hunlocked, hsettle⟩ := h
  obtain ⟨htotal, hpos⟩ := sumPositivePayments_ok hsum
  rw [zero_add] at htotal
  subst htotal
  exact ⟨t, (requireAdmin_ok hadmin).1, requireNotPaused_ok hpaused, hfrozen, hpos, hcovered,
    hunlocked, hsettle⟩

theorem queueWithdrawal_ok {caller asset payee : Address} {amount : ℤ} {id : ℕ}
    (h : queueWithdrawal H env s caller asset payee amount = .ok (id, s')) :
    s.loadTimeLock.Applies amount ∧
      openPending H env s caller asset payee amount [] = .ok (id, s') := by
  simp only [queueWithdrawal, bind_eq_ok, requireTimeLockApplies_eq_ok] at h
  obtain ⟨_, _, _, _, _, _, t, _, _, _, _, _, _, _, _, happlies, hopen⟩ := h
  exact ⟨happlies, hopen⟩

theorem queueBatchTransfer_ok {caller asset : Address} {payments : List Payment} {id : ℕ}
    (h : queueBatchTransfer H env s caller asset payments = .ok (id, s')) :
    payments ≠ [] ∧ s.loadTimeLock.Applies (paymentsTotal payments) ∧
      ∃ first : Payment, openPending H env s caller asset first.recipient (paymentsTotal payments)
        payments = .ok (id, s') := by
  simp only [queueBatchTransfer, requireBatchSize, bind_eq_ok, require_eq_ok,
    requireTimeLockApplies_eq_ok] at h
  obtain ⟨_, hsize, _, _, _, _, t, _, _, _, total, hsum, _, _, _, happlies, first, _, hopen⟩ := h
  obtain ⟨htotal, _⟩ := sumPositivePayments_ok hsum
  rw [zero_add] at htotal
  subst htotal
  exact ⟨hsize.1, happlies, first, hopen⟩

/-- What `open_pending` records. -/
theorem openPending_ok {requester asset payee : Address} {amount : ℤ} {payments : List Payment}
    {id : ℕ} (h : openPending H env s requester asset payee amount payments = .ok (id, s')) :
    ∃ p : PendingWithdrawal, p.asset = asset ∧ p.payee = payee ∧ p.amount = amount ∧
      p.payments = payments ∧ p.requestedAt = env.timestamp ∧
      p.executeAfter.toNat = env.timestamp.toNat + s.loadTimeLock.delay.toNat ∧ p.IsPending ∧
      s' = { s.storePending (s.pendingWithdrawalCount + 1) p with
        pendingWithdrawalCount := s.pendingWithdrawalCount + 1 } := by
  simp only [openPending, bind_eq_ok, checkedAddU64_eq_ok, require_eq_ok, pure_eq_ok,
    Prod.mk.injEq] at h
  obtain ⟨_, ⟨hfits, rfl⟩, _, _, _, _, _, rfl⟩ := h
  have hafter : (env.timestamp + s.loadTimeLock.delay).toNat
      = env.timestamp.toNat + s.loadTimeLock.delay.toNat := by
    rw [UInt64.toNat_add, Nat.mod_eq_of_lt hfits]
  exact ⟨_, rfl, rfl, rfl, rfl, rfl, hafter, ⟨rfl, rfl⟩, rfl⟩

theorem queueWithdrawal_effect {caller asset payee : Address} {amount : ℤ} {id : ℕ}
    (h : queueWithdrawal H env s caller asset payee amount = .ok (id, s')) :
    Effect H env s (.queueWithdrawal caller asset payee amount) s' := by
  obtain ⟨happlies, hopen⟩ := queueWithdrawal_ok h
  obtain ⟨p, rfl, rfl, rfl, hpayments, hrequested, hafter, hpending, hs'⟩ := openPending_ok hopen
  have hlegs : p.legs = [⟨p.payee, p.amount⟩] := by
    rw [PendingWithdrawal.legs, if_pos hpayments]
  refine .queued p ?_ ?_ hrequested hafter hpending hs'
  · rw [hlegs]
    rfl
  · rw [hlegs]
    simpa [paymentsTotal] using happlies

theorem queueBatchTransfer_effect {caller asset : Address} {payments : List Payment} {id : ℕ}
    (h : queueBatchTransfer H env s caller asset payments = .ok (id, s')) :
    Effect H env s (.queueBatchTransfer caller asset payments) s' := by
  obtain ⟨hsome, happlies, first, hopen⟩ := queueBatchTransfer_ok h
  obtain ⟨p, rfl, _, _, rfl, hrequested, hafter, hpending, hs'⟩ := openPending_ok hopen
  have hlegs : p.legs = p.payments := by
    rw [PendingWithdrawal.legs, if_neg hsome]
  refine .queued p ?_ ?_ hrequested hafter hpending hs'
  · rw [hlegs]
    rfl
  · rw [hlegs]
    exact happlies

theorem cancelWithdrawal_ok {caller : Address} {id : ℕ}
    (h : cancelWithdrawal H env s caller id = .ok s') :
    ∃ p, s.pendingWithdrawal id = some p ∧ p.IsPending ∧
      s' = s.storePending id { p with cancelled := true } := by
  simp only [cancelWithdrawal, bind_eq_ok, okOr_eq_ok, require_eq_ok, pure_eq_ok] at h
  obtain ⟨_, _, p, hp, _, hpending, rfl⟩ := h
  exact ⟨p, hp, hpending, rfl⟩

/-- **Every call that returned did one of these things.** -/
theorem exec_effect {call : Call} (h : exec H env s call = .ok s') : Effect H env s call s' := by
  have hconfigures : call.Configures →
      ∃ treasury frozen, s' = { s with treasury := treasury, frozen := frozen } :=
    fun hcall => exec_configures hcall h
  cases call with
  | initializeContract | setRegistry | setPolicy | setBudget | setMultisig | setGuardian | freeze
  | unfreeze | pause | unpause =>
      obtain ⟨_, _, rfl⟩ := hconfigures trivial
      exact .configured ⟨rfl, rfl, rfl, fun hlock => hlock, rfl, rfl⟩
  | addApprovedAsset caller asset =>
      obtain ⟨_, _, rfl⟩ := addApprovedAsset_ok h
      exact .configured ⟨rfl, rfl, rfl, fun hlock => hlock, rfl, rfl⟩
  | removeApprovedAsset caller asset =>
      obtain ⟨_, rfl⟩ := removeApprovedAsset_ok h
      exact .configured ⟨rfl, rfl, rfl, fun hlock => hlock, rfl, rfl⟩
  | deposit src asset amount =>
      obtain ⟨w, received, _, hpos, htransfer, hcustody, rfl⟩ := deposit_ok h
      refine .deposited src asset amount received rfl hpos htransfer hcustody ?_ rfl rfl rfl rfl
      ext a <;> by_cases ha : a = asset
      all_goals simp [State.books, Books.credit, State.loadHolding, State.storeHolding,
        State.storeAssetBalance, State.unlock, ha]
  | allocateBudget admin asset budgetId =>
      obtain ⟨_, rfl⟩ := allocateBudget_ok h
      refine .configured ⟨rfl, ?_, rfl, fun hlock => hlock, rfl, rfl⟩
      ext a <;> by_cases ha : a = asset
      all_goals simp [State.books, State.loadHolding, State.storeHolding, ha]
  | setAllowance admin agent recipient asset limit expiresAt =>
      obtain ⟨_, rfl⟩ := setAllowance_ok h
      exact .configured ⟨rfl, rfl, rfl, fun hlock => hlock, rfl, rfl⟩
  | removeAllowance admin agent recipient asset =>
      obtain rfl := removeAllowance_ok h
      exact .configured ⟨rfl, rfl, rfl, fun hlock => hlock, rfl, rfl⟩
  | withdraw caller asset payee amount =>
      obtain ⟨t, _, hpos, hpaused, hfrozen, _, hunlocked, hsettle⟩ := withdraw_ok h
      obtain ⟨hcovered, hpaid⟩ := settleWithdrawal_ok hsettle
      exact .paid asset _ hpaused (.withdraw hfrozen hpos hunlocked hcovered) hpaid
  | batchTransfer caller asset payments =>
      obtain ⟨t, _, hpaused, hfrozen, hpos, hcovered, hunlocked, hsettle⟩ := batchTransfer_ok h
      exact .paid asset payments hpaused (.batch hfrozen hpos hunlocked hcovered)
        (settleBatch_ok hsettle)
  | setWithdrawalTimeLock caller delay threshold =>
      obtain ⟨lock, hsensible, rfl⟩ := setWithdrawalTimeLock_ok h
      exact .configured ⟨rfl, rfl, rfl, fun _ => hsensible, rfl, rfl⟩
  | queueWithdrawal caller asset payee amount =>
      obtain ⟨id, h⟩ := snd_map_ok h
      exact queueWithdrawal_effect h
  | queueBatchTransfer caller asset payments =>
      obtain ⟨id, h⟩ := snd_map_ok h
      exact queueBatchTransfer_effect h
  | executeWithdrawal caller id =>
      obtain ⟨p, hpaused, hfrozen, hp, hpending, hreached, hcovered, hpaid⟩ :=
        executeWithdrawal_ok h
      exact .executed caller id p rfl hpaused hfrozen hp hpending hreached hcovered hpaid
  | cancelWithdrawal caller id =>
      obtain ⟨p, hp, hpending, hs'⟩ := cancelWithdrawal_ok h
      exact .cancelled caller id p rfl hp hpending hs'
  | initMilestoneDisbursement caller asset payee totalAmount milestones =>
      obtain ⟨id, h⟩ := snd_map_ok h
      obtain ⟨_, _, _, _, rfl⟩ := initMilestoneDisbursement_ok h
      exact .configured ⟨rfl, rfl, rfl, fun hlock => hlock, rfl, rfl⟩
  | releaseNextMilestone caller id =>
      obtain ⟨d, amount, hpaused, hd, hleft, hdue, hcovered, hpaid⟩ := releaseNextMilestone_ok h
      exact .paid d.asset _ hpaused (.milestone hd hleft hdue hcovered) hpaid

/-! ## The registers -/

/-- The approved assets and the milestone schedules are as they were. -/
structure KeepsRegisters (s s' : State World) : Prop where
  approvedAssetList : s'.approvedAssetList = s.approvedAssetList
  approvedAsset : s'.approvedAsset = s.approvedAsset
  approvedAssetCount : s'.approvedAssetCount = s.approvedAssetCount
  milestone : s'.milestone = s.milestone
  milestoneCount : s'.milestoneCount = s.milestoneCount

/-- The calls that write the approved assets or a milestone schedule. -/
def Call.EditsRegister : Call → Prop
  | .addApprovedAsset .. | .removeApprovedAsset .. | .initMilestoneDisbursement ..
  | .releaseNextMilestone .. => True
  | _ => False

theorem openPending_registers {requester asset payee : Address} {amount : ℤ}
    {payments : List Payment} {id : ℕ}
    (h : openPending H env s requester asset payee amount payments = .ok (id, s')) :
    KeepsRegisters s s' := by
  obtain ⟨_, _, _, _, _, _, _, _, rfl⟩ := openPending_ok h
  exact ⟨rfl, rfl, rfl, rfl, rfl⟩

theorem settleWithdrawal_registers {t : Treasury} {caller asset payee : Address} {amount : ℤ}
    (h : settleWithdrawal H env s t caller asset payee amount = .ok s') : KeepsRegisters s s' := by
  obtain ⟨_, _, _, _, _, _, _, _, _, hdebit, hpay, rfl⟩ := settleWithdrawal_steps h
  obtain rfl := debit_ok hdebit
  obtain ⟨_, _, _, rfl⟩ := payOut_ok hpay
  exact ⟨rfl, rfl, rfl, rfl, rfl⟩

theorem settleBatch_registers {t : Treasury} {caller asset : Address} {payments : List Payment}
    (h : settleBatch H env s t caller asset payments = .ok s') : KeepsRegisters s s' := by
  obtain ⟨_, _, _, _, _, _, hdebit, hpay, rfl⟩ := settleBatch_steps h
  obtain rfl := debit_ok hdebit
  obtain ⟨_, _, _, rfl⟩ := payOut_ok hpay
  exact ⟨rfl, rfl, rfl, rfl, rfl⟩

theorem executeWithdrawal_registers {caller : Address} {id : ℕ}
    (h : executeWithdrawal H env s caller id = .ok s') : KeepsRegisters s s' := by
  obtain ⟨_, p, _, _, _, _, _, _, _, _, h⟩ := executeWithdrawal_steps h
  have hstored : KeepsRegisters (s.storePending id { p with executed := true }) s' := by
    split at h
    · exact settleWithdrawal_registers h
    · exact settleBatch_registers h
  exact ⟨hstored.approvedAssetList, hstored.approvedAsset, hstored.approvedAssetCount,
    hstored.milestone, hstored.milestoneCount⟩

/-- **Every other call leaves the registers alone.** -/
theorem exec_registers {call : Call} (hcall : ¬ call.EditsRegister)
    (h : exec H env s call = .ok s') : KeepsRegisters s s' := by
  have hconfigures : call.Configures → KeepsRegisters s s' := by
    intro hcall
    obtain ⟨_, _, rfl⟩ := exec_configures hcall h
    exact ⟨rfl, rfl, rfl, rfl, rfl⟩
  cases call with
  | initializeContract | setRegistry | setPolicy | setBudget | setMultisig | setGuardian | freeze
  | unfreeze | pause | unpause => exact hconfigures trivial
  | addApprovedAsset | removeApprovedAsset | initMilestoneDisbursement | releaseNextMilestone =>
      exact absurd trivial hcall
  | deposit =>
      obtain ⟨_, _, _, _, _, _, rfl⟩ := deposit_ok h
      exact ⟨rfl, rfl, rfl, rfl, rfl⟩
  | allocateBudget =>
      obtain ⟨_, rfl⟩ := allocateBudget_ok h
      exact ⟨rfl, rfl, rfl, rfl, rfl⟩
  | setAllowance =>
      obtain ⟨_, rfl⟩ := setAllowance_ok h
      exact ⟨rfl, rfl, rfl, rfl, rfl⟩
  | removeAllowance =>
      obtain rfl := removeAllowance_ok h
      exact ⟨rfl, rfl, rfl, rfl, rfl⟩
  | withdraw =>
      obtain ⟨_, _, _, _, _, _, _, hsettle⟩ := withdraw_ok h
      exact settleWithdrawal_registers hsettle
  | batchTransfer =>
      obtain ⟨_, _, _, _, _, _, _, hsettle⟩ := batchTransfer_ok h
      exact settleBatch_registers hsettle
  | setWithdrawalTimeLock =>
      obtain ⟨_, _, rfl⟩ := setWithdrawalTimeLock_ok h
      exact ⟨rfl, rfl, rfl, rfl, rfl⟩
  | queueWithdrawal =>
      obtain ⟨_, h⟩ := snd_map_ok h
      exact openPending_registers (queueWithdrawal_ok h).2
  | queueBatchTransfer =>
      obtain ⟨_, h⟩ := snd_map_ok h
      obtain ⟨_, _, _, hopen⟩ := queueBatchTransfer_ok h
      exact openPending_registers hopen
  | executeWithdrawal => exact executeWithdrawal_registers h
  | cancelWithdrawal =>
      obtain ⟨_, _, _, rfl⟩ := cancelWithdrawal_ok h
      exact ⟨rfl, rfl, rfl, rfl, rfl⟩

end TreasuryContract
end Astroid
