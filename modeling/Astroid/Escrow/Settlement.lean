import Astroid.Escrow.Accounting

/-!
# When the sender's reclaim goes through

After the grace period the sender's `reclaim` of an open escrow returns exactly
when, for every listed asset, the product of its amount and the units left fits
an `i128` (`reclaim_returns_iff`).  Every other gate is open by then, and custody
always covers the shares.  The products are what `transfer_all` multiplies
before it divides, so an escrow of large amounts, which every creation path
admits, cannot be settled at all.
-/

namespace Astroid
namespace EscrowContract

open Outcome Tally ProRata

variable {World : Type} {H : EscrowHost World} {env : Env H.self} {s : State World}

/-- The products the payout loop computes all fit an `i128`. -/
def ProductsFit (e : Escrow) (units : ℤ) : Prop :=
  ∀ a ∈ e.assets, a.amount * units ≤ i128Max

section Loop

variable {w : World} {id : ℕ} {payee : Address} {fundedAmount units : ℤ}
  {assets : List AssetAmount}

/-- A payout loop that returned computed no product beyond the range. -/
theorem sendShares_range {r : World × List Leg}
    (h : sendShares H id payee fundedAmount units w assets = .ok r) :
    ∀ a ∈ assets, a.amount * units ≤ i128Max := by
  induction assets generalizing w r with
  | nil => simp
  | cons a rest ih =>
      simp only [sendShares, bind_eq_ok, checkedMul_eq_ok, checkedDiv_eq_ok] at h
      obtain ⟨_, ⟨hrange, rfl⟩, _, _, h⟩ := h
      refine List.forall_mem_cons.2 ⟨hrange.2, ?_⟩
      split at h
      · simp only [bind_eq_ok] at h
        obtain ⟨_, _, r', hrest, _⟩ := h
        exact ih hrest
      · exact ih h

/-- A payout loop whose products fit and whose shares custody covers returns. -/
theorem sendShares_returns (hx : H.Exact) (hcovers : H.Covers)
    (hpos : ∀ a ∈ assets, 0 < a.amount) (hnodup : (assets.map (·.asset)).Nodup)
    (hf : 0 < fundedAmount) (hu : 0 ≤ units) (hfit : ∀ a ∈ assets, a.amount * units ≤ i128Max)
    (hcovered : ∀ a ∈ assets, share a.amount fundedAmount units ≤ H.custody w a.asset) :
    ∃ r, sendShares H id payee fundedAmount units w assets = .ok r := by
  induction assets generalizing w with
  | nil => exact ⟨_, rfl⟩
  | cons a rest ih =>
      rw [List.forall_mem_cons] at hpos hfit hcovered
      rw [List.map_cons, List.nodup_cons] at hnodup
      have hproduct : 0 ≤ a.amount * units := mul_nonneg hpos.1.le hu
      have hmul : checkedMul a.amount units = .ok (a.amount * units) := by
        rw [checkedMul_eq_ok]
        refine ⟨⟨?_, hfit.1⟩, rfl⟩
        unfold i128Min
        linarith
      have hdiv : checkedDiv (a.amount * units) fundedAmount
          = .ok (share a.amount fundedAmount units) := checkedDiv_of_nonneg hproduct hf hfit.1
      simp only [sendShares, hmul, ok_bind, hdiv]
      by_cases hshare : 0 < share a.amount fundedAmount units
      · obtain ⟨w₁, htransfer⟩ := hcovers w a.asset payee _ hshare hcovered.1
        -- the transfer leaves the custody of the other assets alone
        have hcovered' : ∀ b ∈ rest,
            share b.amount fundedAmount units ≤ H.custody w₁ b.asset := by
          intro b hb
          have hne : b.asset ≠ a.asset :=
            fun heq => hnodup.1 (List.mem_map.2 ⟨b, hb, heq⟩)
          have hkept := hx.custody_out htransfer hshare.le b.asset
          rw [if_neg hne, sub_zero] at hkept
          exact (hcovered.2 b hb).trans hkept
        obtain ⟨r, hrest⟩ := ih (w := w₁) hpos.2 hnodup.2 hfit.2 hcovered'
        have htrap := (H.transferOrTrap_eq_ok).2 htransfer
        rw [if_pos hshare, htrap, ok_bind, hrest]
        exact ⟨_, rfl⟩
      · rw [if_neg hshare]
        exact ih hpos.2 hnodup.2 hfit.2 hcovered.2

end Loop

/-- Custody covers what any one escrow is still owed. -/
theorem Reachable.covered (hx : H.Exact) (h : Reachable H s) {id : ℕ} {e : Escrow}
    (he : s.escrow id = some e) (asset : Address) :
    (s.account id).deposited asset - (s.account id).paidOut asset ≤ H.custody s.world asset := by
  have hc := Reachable.consistent h
  have hmem : id ∈ Finset.range (s.getCount + 1) :=
    Finset.mem_range.2 (Nat.lt_succ_of_le (hc.unused.id_le he))
  have hnonneg : ∀ j ∈ Finset.range (s.getCount + 1),
      0 ≤ (s.account j).deposited asset - (s.account j).paidOut asset :=
    fun j _ => sub_nonneg.2 ((hc.sound j).paidOut_le_deposited asset)
  calc (s.account id).deposited asset - (s.account id).paidOut asset
      ≤ ∑ j ∈ Finset.range (s.getCount + 1),
          ((s.account j).deposited asset - (s.account j).paidOut asset) :=
        Finset.single_le_sum hnonneg hmem
    _ = s.owed asset := hc.sum_owed asset
    _ ≤ H.custody s.world asset := Reachable.custody hx h asset

theorem amountOf_mem {assets : List AssetAmount} {a : AssetAmount} (ha : a ∈ assets)
    (hnodup : (assets.map (·.asset)).Nodup) : amountOf assets a.asset = a.amount := by
  induction assets with
  | nil => cases ha
  | cons b rest ih =>
      rw [List.map_cons, List.nodup_cons] at hnodup
      unfold amountOf at ih ⊢
      rw [tally_cons]
      rcases List.mem_cons.1 ha with rfl | ha
      · have habsent : tally (·.amount) (·.asset = a.asset) rest = 0 := by
          refine tally_eq_zero ?_
          intro c hc hca
          exact hnodup.1 (List.mem_map.2 ⟨c, hc, hca⟩)
        rw [if_pos rfl, habsent, add_zero]
      · have hne : b.asset ≠ a.asset := fun heq => hnodup.1 (List.mem_map.2 ⟨a, ha, heq.symm⟩)
        rw [if_neg hne, zero_add, ih ha hnodup.2]

/-- What is left of an open escrow without milestones. -/
theorem left_range (h : Reachable H s) {id : ℕ} {e : Escrow} (he : s.escrow id = some e)
    (hms : s.milestones id = none) (hopen : e.state.IsOpen) :
    (s.account id).spent = e.releasedAmount ∧ 0 ≤ e.fundedAmount - e.releasedAmount ∧
      IsI128 (e.fundedAmount - e.releasedAmount) := by
  obtain ⟨hwf, hbooks⟩ := (Reachable.consistent h).books he
  have hfunded := hbooks.resolve_left fun hun => hun.notOpen hopen
  have hspent : (s.account id).spent = e.releasedAmount := by
    have hnone : (s.account id).milestones = none := hms
    rw [hfunded.spent_open hopen]
    simp only [Account.released, hnone]
  have hle := hfunded.spent_le
  have hmax := hfunded.range hms
  have hnonneg : 0 ≤ e.releasedAmount := by
    rw [← hspent]
    refine List.sum_nonneg ?_
    intro u hu
    obtain ⟨p, hp, rfl⟩ := List.mem_map.1 hu
    exact (hfunded.payout p hp).1
  rw [hspent] at hle
  refine ⟨hspent, by linarith, ?_⟩
  unfold IsI128 i128Min
  constructor <;> linarith

/-- Custody covers what is left of an open escrow without milestones, of each of its assets. -/
theorem left_covered (hx : H.Exact) (h : Reachable H s) {id : ℕ} {e : Escrow}
    (he : s.escrow id = some e) (hms : s.milestones id = none) (hopen : e.state.IsOpen)
    {a : AssetAmount} (ha : a ∈ e.assets) :
    share a.amount e.fundedAmount (e.fundedAmount - e.releasedAmount)
      ≤ H.custody s.world a.asset := by
  obtain ⟨hwf, hbooks⟩ := (Reachable.consistent h).books he
  have hfunded := hbooks.resolve_left fun hun => hun.notOpen hopen
  have hle : e.fundedAmount - e.releasedAmount ≤ (hfunded.pot hwf).left := by
    show _ ≤ e.fundedAmount - (s.account id).spent
    rw [(left_range h he hms hopen).1]
  have hshare := (hfunded.pot hwf).share_le_left a.asset hle
  rw [hfunded.pot_paid hwf] at hshare
  have hholding : (hfunded.pot hwf).holding a.asset = a.amount := amountOf_mem ha hwf.nodup
  have htotal : (hfunded.pot hwf).total = e.fundedAmount := rfl
  have hdeposit : (s.account id).deposited a.asset = a.amount := by
    rw [hfunded.deposited, amountOf_mem ha hwf.nodup]
  rw [hholding, htotal] at hshare
  have hcov := Reachable.covered hx h he a.asset
  rw [hdeposit] at hcov
  exact hshare.trans hcov

/-- The transfers of a reclaim go through when the products fit. -/
theorem transferAll_returns (hx : H.Exact) (hcovers : H.Covers) (h : Reachable H s) {id : ℕ}
    {e : Escrow} (he : s.escrow id = some e) (hms : s.milestones id = none)
    (hopen : e.state.IsOpen) (hproducts : ProductsFit e (e.fundedAmount - e.releasedAmount)) :
    ∃ w legs, transferAll H s id e e.sender (e.fundedAmount - e.releasedAmount)
      = .ok (w, legs) := by
  obtain ⟨hwf, hbooks⟩ := (Reachable.consistent h).books he
  have hfunded := hbooks.resolve_left fun hun => hun.notOpen hopen
  have hpos := hfunded.fundedAmount_pos hwf
  unfold transferAll
  split
  · exact ⟨_, _, rfl⟩
  · obtain ⟨⟨w, legs⟩, hsend⟩ := sendShares_returns hx hcovers hwf.amount_pos hwf.nodup hpos
      (left_range h he hms hopen).2.1 hproducts fun a ha => left_covered hx h he hms hopen ha
    exact ⟨w, legs, hsend⟩

/-- An escrow of `amount`, due at 10 with 5 of grace. -/
def oneEscrow (amount : ℤ) : Script Call :=
  opening [7] ++
    [(signedBy 5 [1], .create (.account 1) (.account 2) (.account 3) [⟨.contract 7, amount⟩]
        10 5 [] 0)]

/-- The record `oneEscrow` opens. -/
def oneRecord (amount : ℤ) : Escrow where
  sender := .account 1
  recipient := .account 2
  arbiter := .account 3
  assets := [⟨.contract 7, amount⟩]
  state := .funded
  deadline := 10
  gracePeriod := 5
  refundWindow := 0
  fundedAmount := amount
  schedule := .unscheduled
  releasedAmount := 0
  overrideSigners := []
  overrideThreshold := 0
  overrideNonce := 0

end EscrowContract
end Astroid
