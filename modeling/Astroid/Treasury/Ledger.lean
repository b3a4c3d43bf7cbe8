import Astroid.Treasury.Effects

/-!
# The treasury ledger

What a treasury holds of an asset is never negative and never more than its
custody, and together with what it paid out it is what was credited.  The second
half holds in every run (`Reachable.balanced`).  The first half does not:
`settle_batch` checks the live custody balance alone, and a queued batch is
settled without the check of the recorded one that the direct routes make.  It
holds in every run whose executed batches are covered by the recorded balance
(`ledger_invariant`).
-/

namespace Astroid
namespace TreasuryContract

variable {World : Type} {H : TreasuryHost World} {env : Env H.self} {s s' : State World}

/-- Nobody but the treasury takes tokens out of its custody: a transfer of one
asset leaves its custody of the others, and so do its policies and budgets. -/
structure TreasuryHost.Honest (H : TreasuryHost World) : Prop where
  transfer : ∀ w asset src dst amount w', H.transfer w asset src dst amount = .ok w' →
    ∀ a, a ≠ asset → H.custody w a ≤ H.custody w' a
  checkTransfer : ∀ env w policy id asset payee amount w',
    H.checkTransfer env w policy id asset payee amount = some w' →
    ∀ a, H.custody w a ≤ H.custody w' a
  consume : ∀ env w budget caller id amount w',
    H.consume env w budget caller id amount = some w' → ∀ a, H.custody w a ≤ H.custody w' a

namespace TreasuryHost.Honest

theorem consults (hx : H.Honest) {w w' : World} (h : Consults H env w w') (a : Address) :
    H.custody w a ≤ H.custody w' a := by
  induction h with
  | refl => exact le_rfl
  | tail _ hcall ih =>
      rcases hcall with ⟨_, _, _, _, _, hcall⟩ | ⟨_, _, _, _, hcall⟩
      · exact ih.trans (hx.checkTransfer _ _ _ _ _ _ _ _ hcall a)
      · exact ih.trans (hx.consume _ _ _ _ _ _ _ hcall a)

theorem moves (hx : H.Honest) {asset : Address} {w w' : World} (h : Moves H asset w w')
    {a : Address} (ha : a ≠ asset) : H.custody w a ≤ H.custody w' a := by
  induction h with
  | refl => exact le_rfl
  | tail _ hcall ih =>
      obtain ⟨_, _, _, hcall⟩ := hcall
      exact ih.trans (hx.transfer _ _ _ _ _ _ hcall a ha)

/-- A payout takes no more than its total out of the custody of its asset, and
nothing out of that of the others. -/
theorem paid (hx : H.Honest) {asset : Address} {payments : List Payment}
    (h : Paid H env s s' asset payments) :
    H.custody s.world asset - paymentsTotal payments ≤ H.custody s'.world asset ∧
      ∀ a, a ≠ asset → H.custody s.world a ≤ H.custody s'.world a := by
  obtain ⟨w, hconsults, hmoves, hcustody⟩ := h.world
  constructor
  · have hle := hx.consults hconsults asset
    omega
  · intro a ha
    exact (hx.consults hconsults a).trans (hx.moves hmoves ha)

end TreasuryHost.Honest

/-! ## The two halves of the law -/

theorem Paid.balanced {asset : Address} {payments : List Payment}
    (h : Paid H env s s' asset payments) (hb : s.books.Balanced) : s'.books.Balanced := by
  rw [h.books]
  exact hb.pay

theorem Paid.backed (hx : H.Honest) {asset : Address} {payments : List Payment}
    (h : Paid H env s s' asset payments) (hb : s.books.Backed (H.custody s.world))
    (hcovered : paymentsTotal payments ≤ s.books.totalIn asset) :
    s'.books.Backed (H.custody s'.world) := by
  rw [h.books]
  exact hb.pay hcovered (hx.paid h).1 (hx.paid h).2

/-- Every call keeps the books balanced. -/
theorem Effect.balanced {call : Call} (h : Effect H env s call s') (hb : s.books.Balanced) :
    s'.books.Balanced := by
  cases h with
  | configured hsame =>
      rw [hsame.books]
      exact hb
  | queued p _ _ _ _ _ hs' =>
      subst hs'
      exact hb
  | cancelled caller id p _ _ _ hs' =>
      subst hs'
      exact hb
  | deposited src asset amount received _ _ _ _ hbooks _ _ _ _ =>
      rw [hbooks]
      exact hb.credit
  | paid asset payments _ _ hpaid => exact hpaid.balanced hb
  | executed caller id p _ _ _ _ _ _ _ hpaid => exact hpaid.balanced hb

/-- The queued batch a call executes, if it executes one, is covered by the recorded
balance of its asset. -/
def CoversBatch (s : State World) : Call → Prop
  | .executeWithdrawal _ id => ∀ p, s.pendingWithdrawal id = some p → p.payments ≠ [] →
      paymentsTotal p.payments ≤ (s.loadHolding p.asset).totalIn
  | _ => True

/-- A direct payout is covered by the recorded balance: its entrypoint checks. -/
theorem Gated.covered {call : Call} {asset : Address} {payments : List Payment}
    (h : Gated s call asset payments) : paymentsTotal payments ≤ s.books.totalIn asset := by
  cases h with
  | withdraw _ _ _ hcovered => simpa [paymentsTotal] using hcovered
  | batch _ _ _ hcovered => exact hcovered
  | milestone _ _ _ hcovered => simpa [paymentsTotal] using hcovered

/-- Every call whose batch is covered keeps the books backed. -/
theorem Effect.backed (hx : H.Honest) {call : Call} (h : Effect H env s call s')
    (hcovers : CoversBatch s call) (hb : s.books.Backed (H.custody s.world)) :
    s'.books.Backed (H.custody s'.world) := by
  cases h with
  | configured hsame =>
      rw [hsame.books, hsame.world]
      exact hb
  | queued p _ _ _ _ _ hs' =>
      subst hs'
      exact hb
  | cancelled caller id p _ _ _ hs' =>
      subst hs'
      exact hb
  | deposited src asset amount received _ hpos htransfer hcustody hbooks _ _ _ _ =>
      rw [hbooks]
      exact hb.credit hpos.le hcustody.ge fun a ha => hx.transfer _ _ _ _ _ _ htransfer a ha
  | paid asset payments _ hgated hpaid => exact hpaid.backed hx hb hgated.covered
  | executed caller id p hcall _ _ hp _ _ hsingle hpaid =>
      refine hpaid.backed hx hb ?_
      show paymentsTotal p.legs ≤ s.books.totalIn p.asset
      unfold PendingWithdrawal.legs
      by_cases hempty : p.payments = []
      · rw [if_pos hempty]
        simpa [paymentsTotal] using hsingle hempty
      · rw [if_neg hempty]
        subst hcall
        exact hcovers p hp hempty

theorem Fresh.balanced (h : Fresh H s) : s.books.Balanced := by
  rw [h.books]
  exact ⟨fun _ => rfl, fun _ => rfl⟩

theorem Fresh.backed (h : Fresh H s) : s.books.Backed (H.custody s.world) := by
  rw [h.books]
  exact fun a => ⟨le_rfl, h.custody a⟩

/-! ## Over whole runs -/

/-- Every reachable treasury has balanced books. -/
theorem Reachable.balanced (h : Reachable H s) : s.books.Balanced := by
  refine Machine.Reachable.invariant (M := machine H) (fun _ => Fresh.balanced) ?_ h
  intro i s s' hb hstep
  cases i with
  | invoke env call => exact (exec_effect hstep).balanced hb
  | outside time w =>
      obtain ⟨_, rfl⟩ := hstep
      exact hb

/-- Every queued batch that is executed is covered by the recorded balance. -/
def coveredBatches : Inputs H → State World → Prop
  | .invoke _ call, s => CoversBatch s call
  | .outside _ _, _ => True

/-- The law of the ledger: of every asset, the treasury holds what it announces, at
least nothing and at most its custody, and what it holds and what it paid out
are what was credited. -/
def LedgerLaw (H : TreasuryHost World) (s : State World) : Prop :=
  ∀ asset, 0 ≤ (s.loadHolding asset).totalIn ∧
    (s.loadHolding asset).totalIn ≤ H.custody s.world asset ∧
    (s.assetBalance asset).getD 0 = (s.loadHolding asset).totalIn ∧
    (s.loadHolding asset).totalIn + (s.loadHolding asset).totalOut = s.credited asset

/-- **The treasury ledger.**  In every run whose executed batches are covered, the
law holds. -/
theorem ledger_invariant (hx : H.Honest) {t : ℕ} {tr : List (Entry (State World) (Inputs H))}
    (hpath : (machine H).Path coveredBatches tr s t) : LedgerLaw H s := by
  have hbacked : s.books.Backed (H.custody s.world) := by
    refine hpath.invariant (P := fun s => s.books.Backed (H.custody s.world))
      (fun _ => Fresh.backed) ?_
    intro i s s' hb hcovers hstep
    cases i with
    | invoke env call => exact (exec_effect hstep).backed hx hcovers hb
    | outside time w =>
        obtain ⟨hcustody, rfl⟩ := hstep
        exact hb.mono hcustody
  have hbalanced := Reachable.balanced hpath.reachable
  intro asset
  exact ⟨(hbacked asset).1, (hbacked asset).2, hbalanced.balance asset, hbalanced.credited asset⟩

/-! ## Two runs -/

theorem referenceHost_honest : referenceHost.Honest where
  transfer := by
    intro w asset src dst amount w' h a ha
    have hheld := ledgerHost_exact (.contract 0) w asset src dst amount w' h a (.contract 0)
    have hcustody : referenceHost.custody w' a = referenceHost.custody w a := by
      show (ledgerHost (.contract 0)).held w' a (.contract 0)
        = (ledgerHost (.contract 0)).held w a (.contract 0)
      rw [hheld]
      simp [ha]
    exact hcustody.ge
  checkTransfer := by
    rintro env w policy id asset payee amount w' ⟨⟩ a
    exact le_rfl
  consume := by
    rintro env w budget caller id amount w' ⟨⟩ a
    exact le_rfl

/-- After the opening, payouts of one unit or more wait a day.  A batch of `amount` to
account 2 is queued and executed. -/
def queuedBatch (amount : ℤ) : Script Call :=
  opening ++
    [(signedBy 1 [0], .setWithdrawalTimeLock (.account 0) 86400 1),
      (signedBy 2 [0], .queueBatchTransfer (.account 0) (.contract 7) [⟨.account 2, amount⟩]),
      (signedBy 90000 [0], .executeWithdrawal (.account 0) 1)]

/-- A batch of 80 out of 100 is covered. -/
theorem ledger_invariant_covered :
    LedgerLaw referenceHost (play (deployed (funded 50)) (queuedBatch 80)) := by
  have hstart : (machine referenceHost).Path coveredBatches [] (deployed (funded 50)) 0 :=
    .start (funded_fresh (by decide))
  have hallow : (deployment referenceHost).AllAllowed coveredBatches (deployed (funded 50))
      (queuedBatch 80) := by
    refine ⟨trivial, trivial, trivial, trivial, trivial, ?_, trivial⟩
    rintro p ⟨⟩ _
    decide
  exact ledger_invariant referenceHost_honest (Deployment.path_play hstart rfl hallow)

/-- **The ledger can go negative.**  With 50 units sent to the contract directly, a
queued batch of 120 out of a recorded 100 settles. -/
theorem not_ledger_invariant : ¬ ∀ s, Reachable referenceHost s → LedgerLaw referenceHost s := by
  intro h
  have hreach : Reachable referenceHost (play (deployed (funded 50)) (queuedBatch 120)) :=
    Deployment.reachable_play (funded_fresh (by decide)) rfl
  have hnegative := (h _ hreach (.contract 7)).1
  revert hnegative
  decide

end TreasuryContract
end Astroid
