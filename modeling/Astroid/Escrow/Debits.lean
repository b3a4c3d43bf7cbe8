import Astroid.Escrow.Accounting
import Astroid.Lib.Pool
import Astroid.Shared.Debits

/-!
# Whose tokens an escrow call moves

Deposits are pulled from a sender who authorized the call, and everything else leaves
custody (`exec_moves`, `exec_spares`).  What the escrows are owed of an asset is in custody
(`Reachable.pool`).
-/

namespace Astroid
namespace EscrowContract

open Outcome

variable {World : Type} {H : EscrowHost World} {env : Env H.self} {s s' : State World}
  {w w' : World} {id : ℕ} {e : Escrow} {R : World → World → Prop}

/-- Token traffic takes from the parties that pay in, and from custody. -/
theorem Traffic.moves {payers : Address → Prop} (hR : H.TransferClosed payers R)
    {ins outs : List Leg} (h : Traffic H w ins outs w') (hself : payers H.self)
    (hins : ∀ l ∈ ins, payers l.party) : R w w' := by
  induction h with
  | idle => exact hR.refl _
  | pulled htransfer _ _ ih =>
      rw [List.forall_mem_cons] at hins
      exact hR.trans (hR.transfer htransfer hins.1) (ih hins.2)
  | paid htransfer _ ih => exact hR.trans (hR.transfer htransfer hself) (ih hins)

/-- A payout takes from custody. -/
theorem Traffic.out_moves (hR : H.TransferClosed env.Pays R) {outs : List Leg}
    (h : Traffic H w [] outs w') : R w w' :=
  h.moves hR (.inl rfl) (by simp)

theorem pullAssets_moves (hR : H.TransferClosed env.Pays R) {src : Address}
    {assets : List AssetAmount} {total total' : ℤ} (hauth : src ∈ env.auths)
    (h : pullAssets H src w total assets = .ok (w', total')) : R w w' := by
  -- which escrow the legs are for does not matter here
  have htraffic : Traffic H w (depositLegs 0 src assets) [] w' :=
    (pullAssets_ok h (env.ne_current hauth)).2.2
  refine htraffic.moves hR (.inl rfl) ?_
  intro l hl
  obtain ⟨a, _, rfl⟩ := List.mem_map.1 hl
  exact .inr hauth

theorem openFunded_moves (hR : H.TransferClosed env.Pays R) (hauth : e.sender ∈ env.auths)
    (h : openFunded H s e = .ok (id, s')) : R s.world s'.world := by
  obtain ⟨w, total, _, hpull, rfl⟩ := openFunded_ok h
  exact pullAssets_moves hR hauth hpull

theorem createWithRefundWindow_moves (hR : H.TransferClosed env.Pays R)
    {sender recipient arbiter : Address} {assets : List AssetAmount} {deadline gracePeriod refundWindow : UInt64}
    {releaseSigners : List (BytesN 32)} {releaseThreshold : ℕ}
    (h : createWithRefundWindow H env s sender recipient arbiter assets deadline gracePeriod
      refundWindow releaseSigners releaseThreshold = .ok (id, s')) : R s.world s'.world := by
  obtain ⟨hauth, _, _, _, hopen⟩ := createWithRefundWindow_ok h
  exact openFunded_moves hR hauth hopen

theorem disburse_moves (hR : H.TransferClosed env.Pays R) {units r : ℤ}
    (h : disburse H s id e units = .ok (r, s')) : R s.world s'.world := by
  obtain ⟨w, legs, _, hsend, rfl⟩ := disburse_ok h
  exact (sendShares_ok hsend).2.out_moves hR

theorem cancelMilestonesInner_moves (hR : H.TransferClosed env.Pays R) {caller : Address} {r : ℤ}
    (h : cancelMilestonesInner H s caller id = .ok (r, s')) : R s.world s'.world := by
  obtain ⟨_, _, _, _, _, _, _, _, _, hsend, rfl⟩ := cancelMilestonesInner_ok h
  exact (returnRemaining_ok hsend).2.out_moves hR

/-- **All a call does to the world is to transfer tokens out of custody and from whoever
authorized it.** -/
theorem exec_moves (hR : H.TransferClosed env.Pays R) {call : Call}
    (h : exec H env s call = .ok s') : R s.world s'.world := by
  cases call with
  | initializeContract =>
      simp only [exec, initializeContract, bind_eq_ok, pure_eq_ok] at h
      obtain ⟨_, _, rfl⟩ := h
      exact hR.refl _
  | approveToken =>
      obtain ⟨_, _, rfl⟩ := approveToken_ok h
      exact hR.refl _
  | revokeToken =>
      obtain ⟨_, rfl⟩ := revokeToken_ok h
      exact hR.refl _
  | create =>
      obtain ⟨_, h⟩ := snd_map_ok h
      exact createWithRefundWindow_moves hR h
  | createWithRefundWindow =>
      obtain ⟨_, h⟩ := snd_map_ok h
      exact createWithRefundWindow_moves hR h
  | createWithReleaseCondition =>
      obtain ⟨_, h⟩ := snd_map_ok h
      obtain ⟨s₁, hcreate, hs'⟩ := createWithReleaseCondition_ok h
      -- the condition is stored after the deposits are in
      have hmoved : R s.world s₁.world := createWithRefundWindow_moves hR hcreate
      rcases hs' with rfl | rfl <;> exact hmoved
  | approveRelease =>
      obtain ⟨_, h⟩ := snd_map_ok h
      rw [(approveRelease_quiet h).world]
      exact hR.refl _
  | createTimelock =>
      obtain ⟨_, h⟩ := snd_map_ok h
      obtain ⟨hauth, _, _, _, hopen⟩ := createTimelock_ok h
      exact openFunded_moves hR hauth hopen
  | createScheduled =>
      obtain ⟨_, h⟩ := snd_map_ok h
      obtain ⟨_, hauth, _, _, _, hopen⟩ := createScheduled_ok h
      exact openFunded_moves hR hauth hopen
  | initializeTimelock =>
      obtain ⟨_, h⟩ := snd_map_ok h
      obtain ⟨_, _, _, _, rfl⟩ := initializeTimelock_ok h
      exact hR.refl _
  | fund =>
      obtain ⟨_, _, _, hauth, _, _, _, hpull, rfl⟩ := fund_ok h
      exact pullAssets_moves hR hauth hpull
  | withdraw =>
      obtain ⟨_, h⟩ := snd_map_ok h
      obtain ⟨_, _, _, _, _, _, _, _, _, _, hdisburse⟩ := withdraw_ok h
      exact disburse_moves hR hdisburse
  | claim =>
      obtain ⟨_, h⟩ := snd_map_ok h
      obtain ⟨_, _, _, _, _, ⟨_, _, _, _, _, hdisburse⟩ | ⟨_, _, _, _, hsend, rfl⟩⟩ := claim_ok h
      · exact disburse_moves hR hdisburse
      · exact (transferAll_ok hsend).2.out_moves hR
  | release =>
      obtain ⟨_, _, _, _, _, _, _, _, _, _, hsend, rfl⟩ := release_ok h
      exact (transferAll_ok hsend).2.out_moves hR
  | overrideRelease =>
      obtain ⟨_, _, _, _, _, _, _, _, hsend, rfl⟩ := overrideRelease_ok h
      exact (transferAll_ok hsend).2.out_moves hR
  | expire =>
      obtain ⟨_, _, _, _, rfl⟩ := expire_ok h
      exact hR.refl _
  | refund =>
      obtain ⟨_, _, _, hexit, _, _, hsend⟩ := refund_ok h
      obtain rfl := hexit.post
      exact (returnRemaining_ok hsend).2.out_moves hR
  | refundTimelock =>
      obtain ⟨_, _, _, hexit, _, hsend⟩ := refundTimelock_ok h
      obtain rfl := hexit.post
      exact (returnRemaining_ok hsend).2.out_moves hR
  | reclaim =>
      obtain ⟨_, _, _, hexit, _, _, hsend⟩ := reclaim_ok h
      obtain rfl := hexit.post
      exact (transferAll_ok hsend).2.out_moves hR
  | cancel =>
      rcases cancel_ok h with ⟨_, hcancel⟩ | ⟨_, _, _, _, _, _, _, hsend, rfl⟩
      · exact cancelMilestonesInner_moves hR hcancel
      · exact (returnRemaining_ok hsend).2.out_moves hR
  | close =>
      obtain ⟨_, _, _, rfl⟩ := close_ok h
      exact hR.refl _
  | depositWithMilestones =>
      obtain ⟨_, h⟩ := snd_map_ok h
      obtain ⟨_, hauth, _, _, _, _, htransfer, rfl⟩ := depositWithMilestones_ok h
      exact hR.transfer htransfer (.inr hauth)
  | releaseMilestone =>
      obtain ⟨_, _, _, _, _, _, _, _, _, _, _, _, _, htransfer, hs'⟩ := releaseMilestone_ok h
      subst hs'
      split <;> exact hR.transfer htransfer (.inl rfl)
  | disputeMilestone =>
      obtain ⟨_, _, _, _, _, _, _, _, _, _, _, _, rfl⟩ := disputeMilestone_ok h
      exact hR.refl _
  | resolveMilestone =>
      obtain ⟨_, _, _, _, _, _, _, _, _, _, _, _, rfl⟩ := resolveMilestone_ok h
      exact hR.refl _
  | cancelRemainingMilestones =>
      obtain ⟨_, h⟩ := snd_map_ok h
      simp only [cancelRemainingMilestones, bind_eq_ok] at h
      obtain ⟨_, _, hcancel⟩ := h
      exact cancelMilestonesInner_moves hR hcancel

/-- So of everybody else, no balance falls. -/
theorem exec_spares (hx : H.Standard) {call : Call} (h : exec H env s call = .ok s') :
    H.Spares env.Pays s.world s'.world :=
  exec_moves hx.closed h

/-! ## What the escrows are owed -/

/-- What escrow `id` is still owed of an asset: its deposits less its payouts. -/
def State.owedTo (s : State World) (id : ℕ) (asset : Address) : ℤ :=
  (s.account id).deposited asset - (s.account id).paidOut asset

/-- **Custody covers the escrows**, however many of them are taken together. -/
theorem Reachable.pool (hx : H.Exact) (h : Reachable H s) :
    Pool.Solvent s.owedTo (H.custody s.world) := by
  have hc := h.consistent
  refine .of_carrier (C := Finset.range (s.getCount + 1)) ?_ ?_ ?_
  · intro id asset
    exact sub_nonneg.2 ((hc.sound id).paidOut_le_deposited asset)
  · intro id hid asset
    rw [Finset.mem_range, Nat.lt_succ_iff, not_le] at hid
    unfold State.owedTo
    rw [hc.unused id hid]
    rfl
  · intro asset
    calc ∑ id ∈ Finset.range (s.getCount + 1), s.owedTo id asset
        = s.owed asset := hc.sum_owed asset
      _ ≤ H.custody s.world asset := h.custody hx asset

end EscrowContract
end Astroid
