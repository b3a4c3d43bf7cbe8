import Astroid.Escrow.SenderExits

/-!
# What the refund view promises

`is_refundable` checks three of the gates of the sender's exits: the state, the end of the
grace period and the refund window.  It knows neither the gate of the milestone escrows nor the
range of the products the payout loop computes, so it answers `true` on escrows no exit accepts.
It is right exactly where these two do not decide (`isRefundable_exact_iff`).
-/

namespace Astroid
namespace EscrowContract

open Outcome

variable {World : Type} (H : EscrowHost World) (env : Env H.self) (s : State World)

/-- `is_refundable`. -/
def isRefundable (id : ℕ) : Result Bool := do
  let e ← s.loadEscrow id
  if ¬ (e.state = .created ∨ e.state = .funded ∨ e.state = .expired) then
    pure false
  else do
    let graceEnd ← graceEnd e
    if env.timestamp < graceEnd then
      pure false
    else
      pure (requireRefundWindowOpen H env e).isOk

/-- The gates the view checks. -/
structure Escrow.RefundDue (e : Escrow) (now : UInt64) : Prop where
  state : e.state = .created ∨ e.state = .funded ∨ e.state = .expired
  grace : asU64 (asI128 e.deadline + asI128 e.gracePeriod) ≤ now
  window : closesAt e = 0 ∨ now < closesAt e

variable {H env s} {id : ℕ} {e : Escrow}

theorem isRefundable_eq_true (he : s.escrow id = some e) :
    isRefundable H env s id = .ok true ↔ e.RefundDue env.timestamp := by
  simp only [isRefundable, bind_eq_ok, loadEscrow_eq_ok, he, Option.some.injEq, exists_eq_left']
  by_cases hstate : e.state = .created ∨ e.state = .funded ∨ e.state = .expired
  swap
  · rw [if_pos hstate]
    constructor
    · intro h
      cases h
    · intro h
      exact absurd h.state hstate
  rw [if_neg (not_not.2 hstate)]
  simp only [bind_eq_ok, graceEnd_eq_ok, exists_eq_left']
  by_cases hgrace : env.timestamp < asU64 (asI128 e.deadline + asI128 e.gracePeriod)
  · rw [if_pos hgrace]
    constructor
    · intro h
      cases h
    · intro h
      exact absurd hgrace (UInt64.not_lt.2 h.grace)
  · rw [if_neg hgrace, pure_eq_ok, isOk_iff]
    constructor
    · rintro ⟨_, hwindow⟩
      exact ⟨hstate, UInt64.not_lt.1 hgrace, requireRefundWindowOpen_eq_ok.1 hwindow⟩
    · intro h
      exact ⟨(), requireRefundWindowOpen_eq_ok.2 h.window⟩

/-- Nothing is left of a record that was never funded. -/
theorem Consistent.created_left (hc : Consistent H s) (he : s.escrow id = some e)
    (hcreated : e.state = .created) :
    s.milestones id = none ∧ e.fundedAmount - e.releasedAmount = 0 := by
  obtain ⟨_, hun | hfunded⟩ := hc.books he
  · refine ⟨hun.milestones, ?_⟩
    rw [hun.fundedAmount, hun.releasedAmount hcreated, sub_zero]
  · exact absurd hcreated hfunded.notCreated

/-- The payout loop of the sender's exit returns when the products fit. -/
theorem returnRemaining_returns (hx : H.Exact) (hcovers : H.Covers) (h : Reachable H s)
    (he : s.escrow id = some e) (hms : s.milestones id = none)
    (hstate : e.state = .created ∨ e.state = .funded ∨ e.state = .expired)
    (hfit : ProductsFit e (e.fundedAmount - e.releasedAmount)) :
    IsI128 (e.fundedAmount - e.releasedAmount) ∧
      ∃ w legs, returnRemaining H s id e (e.fundedAmount - e.releasedAmount) = .ok (w, legs) := by
  rcases hstate with hcreated | hopen
  · obtain ⟨_, hzero⟩ := (Reachable.consistent h).created_left he hcreated
    rw [hzero]
    exact ⟨⟨by decide, by decide⟩, s.world, [], rfl⟩
  · obtain ⟨_, hnonneg, hrange⟩ := left_range h he hms hopen
    rw [returnRemaining_eq_transferAll hnonneg]
    exact ⟨hrange, transferAll_returns hx hcovers h he hms hopen hfit⟩

theorem returnRemaining_fit {r : World × List Leg} (hwf : WellFormed H.self e)
    (h : returnRemaining H s id e (e.fundedAmount - e.releasedAmount) = .ok r) :
    ProductsFit e (e.fundedAmount - e.releasedAmount) := by
  unfold returnRemaining at h
  split at h
  · exact sendShares_range h
  · rename_i hnonpos
    intro a ha
    have hproduct : a.amount * (e.fundedAmount - e.releasedAmount) ≤ 0 :=
      mul_nonpos_of_nonneg_of_nonpos (hwf.amount_pos a ha).le (not_lt.1 hnonpos)
    exact hproduct.trans (by decide)

/-- When the sender's `refund_timelock` goes through. -/
theorem refundTimelock_returns_iff (hx : H.Exact) (hcovers : H.Covers) (h : Reachable H s)
    (he : s.escrow id = some e) (hauth : e.sender ∈ env.auths) :
    (∃ s', refundTimelock H env s e.sender id = .ok s') ↔
      e.RefundDue env.timestamp ∧ s.milestones id = none ∧
        ProductsFit e (e.fundedAmount - e.releasedAmount) := by
  constructor
  · rintro ⟨s', hrefund⟩
    obtain ⟨e₁, w, legs, hexit, hstate, hsend⟩ := refundTimelock_ok hrefund
    obtain rfl : e = e₁ := Option.some.inj (he.symm.trans hexit.record)
    have hwf := ((Reachable.consistent h).books he).1
    exact ⟨⟨hstate, hexit.grace, hexit.window⟩, hexit.milestones, returnRemaining_fit hwf hsend⟩
  · rintro ⟨hdue, hms, hfit⟩
    obtain ⟨hrange, w, legs, hsend⟩ :=
      returnRemaining_returns hx hcovers h he hms hdue.state hfit
    refine ⟨(s.storeEscrow id { e with state := .refunded }).recordPayout w legs id e.sender
      (e.fundedAmount - e.releasedAmount), ?_⟩
    simp only [refundTimelock, bind_eq_ok, requireAuth_eq_ok, loadEscrow_eq_ok,
      rejectMilestoneSettlement_eq_ok, require_eq_ok, graceEnd_eq_ok,
      requireRefundWindowOpen_eq_ok, checkedSub_eq_ok, Prod.exists, pure_eq_ok]
    exact ⟨(), hauth, e, he, (), hms, (), rfl, (), hdue.state, _, rfl, (), hdue.grace, (),
      hdue.window, _, ⟨hrange, rfl⟩, w, legs, hsend, rfl⟩

/-- A milestone escrow of 100, due at 10. -/
def phasedEscrow : Script Call :=
  opening [7] ++
    [(signedBy 5 [1], .depositWithMilestones (.account 1) (.account 2) (.account 3) (.contract 7)
        100 10 [5000, 5000])]

end EscrowContract
end Astroid
