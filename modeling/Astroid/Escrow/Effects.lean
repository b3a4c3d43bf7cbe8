import Astroid.Escrow.Machine

/-!
# What a successful call returned through

One inversion lemma for each entrypoint: from a call that returned, every guard
it passed, every value it read and the state it left.  No later proof unfolds
an entrypoint again.
-/

namespace Astroid
namespace EscrowContract

open Outcome

variable {World : Type} {H : EscrowHost World} {env : Env H.self} {s s' : State World}

/-! ## Shared pieces -/

@[simp] theorem loadEscrow_eq_ok {id : ℕ} {e : Escrow} :
    s.loadEscrow id = .ok e ↔ s.escrow id = some e :=
  okOr_eq_ok

@[simp] theorem rejectMilestoneSettlement_eq_ok {id : ℕ} {u : Unit} :
    s.rejectMilestoneSettlement id = .ok u ↔ s.milestones id = none :=
  require_eq_ok

@[simp] theorem requireRefundWindowOpen_eq_ok {e : Escrow} {u : Unit} :
    requireRefundWindowOpen H env e = .ok u ↔ closesAt e = 0 ∨ env.timestamp < closesAt e :=
  require_eq_ok

@[simp] theorem requireTokenApproved_eq_ok {token : Address} {u : Unit} :
    requireTokenApproved s token = .ok u ↔ s.approvedToken token = true :=
  require_eq_ok

@[simp] theorem graceEnd_eq_ok {e : Escrow} {t : UInt64} :
    graceEnd e = .ok t ↔ asU64 (asI128 e.deadline + asI128 e.gracePeriod) = t := by
  have hrange : IsI128 (asI128 e.deadline + asI128 e.gracePeriod) := by
    have hd := e.deadline.toNat_lt
    have hg := e.gracePeriod.toNat_lt
    unfold IsI128 i128Min i128Max asI128
    constructor <;> omega
  simp only [graceEnd, bind_eq_ok, checkedAdd_eq_ok, pure_eq_ok]
  constructor
  · rintro ⟨a, ⟨_, rfl⟩, h⟩
    exact h
  · intro h
    exact ⟨_, ⟨hrange, rfl⟩, h⟩

/-- The instant the cast computes: the sum of the two times, modulo `2 ^ 64`. -/
theorem toNat_graceEnd (e : Escrow) :
    (asU64 (asI128 e.deadline + asI128 e.gracePeriod)).toNat
      = (e.deadline.toNat + e.gracePeriod.toNat) % 2 ^ 64 := by
  have hsum : (asI128 e.deadline + asI128 e.gracePeriod).toNat
      = e.deadline.toNat + e.gracePeriod.toNat := by
    unfold asI128
    omega
  rw [toNat_asU64, hsum]

theorem requireTokensApproved_ok {assets : List AssetAmount} {u : Unit}
    (h : requireTokensApproved s assets = .ok u) :
    ∀ a ∈ assets, s.approvedToken a.asset = true := by
  induction assets generalizing u with
  | nil => simp
  | cons a rest ih =>
      simp only [requireTokensApproved, bind_eq_ok, requireTokenApproved_eq_ok] at h
      obtain ⟨_, ha, hrest⟩ := h
      exact List.forall_mem_cons.2 ⟨ha, ih hrest⟩

theorem validateEntries_ok {assets : List AssetAmount} {u : Unit}
    (h : validateEntries assets = .ok u) :
    (∀ a ∈ assets, 0 < a.amount) ∧ (assets.map (·.asset)).Nodup := by
  induction assets generalizing u with
  | nil => simp
  | cons a rest ih =>
      simp only [validateEntries, bind_eq_ok, requirePositiveAmount_eq_ok, require_eq_ok] at h
      obtain ⟨_, hpos, _, hdistinct, hrest⟩ := h
      obtain ⟨hpos', hnodup⟩ := ih hrest
      refine ⟨List.forall_mem_cons.2 ⟨hpos, hpos'⟩, ?_⟩
      rw [List.map_cons, List.nodup_cons]
      refine ⟨?_, hnodup⟩
      intro hmem
      obtain ⟨b, hb, hab⟩ := List.mem_map.1 hmem
      exact hdistinct b hb hab

/-- An asset list that passed `validate_assets`. -/
structure ValidAssets (s : State World) (assets : List AssetAmount) : Prop where
  approved : ∀ a ∈ assets, s.approvedToken a.asset = true
  nonempty : assets ≠ []
  length_le : assets.length ≤ maxEscrowAssets
  amount_pos : ∀ a ∈ assets, 0 < a.amount
  nodup : (assets.map (·.asset)).Nodup

theorem validateAssets_ok {assets : List AssetAmount} {u : Unit}
    (h : validateAssets s assets = .ok u) : ValidAssets s assets := by
  simp only [validateAssets, bind_eq_ok, require_eq_ok] at h
  obtain ⟨_, happroved, _, ⟨hne, hlen⟩, hentries⟩ := h
  obtain ⟨hpos, hnodup⟩ := validateEntries_ok hentries
  exact ⟨requireTokensApproved_ok happroved, hne, hlen, hpos, hnodup⟩

/-! ## The token whitelist -/

theorem approveToken_ok {caller token : Address} (h : approveToken H env s caller token = .ok s') :
    s.approvedToken token = false ∧ s.approvedTokenList.length < maxEscrowTokens ∧
      s' = { s with
        approvedTokenList := s.approvedTokenList ++ [token]
        approvedToken := Function.update s.approvedToken token true } := by
  simp only [approveToken, bind_eq_ok, require_eq_ok, pure_eq_ok] at h
  obtain ⟨_, _, _, hnew, _, hroom, rfl⟩ := h
  exact ⟨hnew, hroom, rfl⟩

theorem revokeToken_ok {caller token : Address} (h : revokeToken H env s caller token = .ok s') :
    s.approvedToken token = true ∧ s' = { s with
      approvedTokenList := s.approvedTokenList.erase token
      approvedToken := Function.update s.approvedToken token false } := by
  simp only [revokeToken, bind_eq_ok, require_eq_ok, pure_eq_ok] at h
  obtain ⟨_, _, _, hlisted, rfl⟩ := h
  exact ⟨hlisted, rfl⟩

/-! ## Creation -/

theorem openFunded_ok {e : Escrow} {id : ℕ} (h : openFunded H s e = .ok (id, s')) :
    ∃ w total, id = s.getCount + 1 ∧
      pullAssets H e.sender s.world 0 e.assets = .ok (w, total) ∧
      s' = ({ s with count := some id }.recordInflow w
        (depositLegs id e.sender e.assets)).storeEscrow id { e with fundedAmount := total } := by
  simp only [openFunded, bind_eq_ok, Prod.exists, pure_eq_ok, Prod.mk.injEq] at h
  obtain ⟨w, total, hpull, rfl, rfl⟩ := h
  exact ⟨w, total, rfl, hpull, rfl⟩

theorem createWithRefundWindow_ok {sender recipient arbiter : Address}
    {assets : List AssetAmount} {deadline gracePeriod refundWindow : UInt64}
    {releaseSigners : List (BytesN 32)} {releaseThreshold id : ℕ}
    (h : createWithRefundWindow H env s sender recipient arbiter assets deadline gracePeriod
      refundWindow releaseSigners releaseThreshold = .ok (id, s')) :
    sender ∈ env.auths ∧ recipient ≠ sender ∧ env.timestamp < deadline ∧ ValidAssets s assets ∧
      openFunded H s ⟨sender, recipient, arbiter, assets, .funded, deadline, gracePeriod,
        refundWindow, 0, .unscheduled, 0, releaseSigners, releaseThreshold, 0⟩ = .ok (id, s') := by
  simp only [createWithRefundWindow, bind_eq_ok, requireAuth_eq_ok, require_eq_ok] at h
  obtain ⟨_, hauth, _, hne, _, hdl, _, hassets, _, _, hopen⟩ := h
  exact ⟨hauth, hne, hdl, validateAssets_ok hassets, hopen⟩

theorem createWithReleaseCondition_ok {config : ReleaseConditionConfig} {id : ℕ}
    (h : createWithReleaseCondition H env s config = .ok (id, s')) :
    ∃ s₁, createWithRefundWindow H env s config.sender config.recipient config.arbiter
        config.assets config.deadline config.gracePeriod config.refundWindow
        config.overrideSigners config.overrideThreshold = .ok (id, s₁) ∧
      (s' = s₁ ∨ s' = s₁.storeReleaseCondition id
        ⟨config.participants, config.approvalThreshold, 0⟩) := by
  simp only [createWithReleaseCondition, bind_eq_ok, Prod.exists] at h
  obtain ⟨_, _, id', s₁, hcreate, h⟩ := h
  split at h
  · cases h
    exact ⟨s₁, hcreate, .inr rfl⟩
  · cases h
    exact ⟨_, hcreate, .inl rfl⟩

theorem createTimelock_ok {sender recipient arbiter : Address} {assets : List AssetAmount}
    {unlockTime : UInt64} {id : ℕ}
    (h : createTimelock H env s sender recipient arbiter assets unlockTime = .ok (id, s')) :
    sender ∈ env.auths ∧ recipient ≠ sender ∧ env.timestamp < unlockTime ∧ ValidAssets s assets ∧
      openFunded H s ⟨sender, recipient, arbiter, assets, .funded, unlockTime, 0, 0, 0,
        ⟨.cliff, env.timestamp, unlockTime, unlockTime⟩, 0, [], 0, 0⟩ = .ok (id, s') := by
  simp only [createTimelock, bind_eq_ok, requireAuth_eq_ok, require_eq_ok] at h
  obtain ⟨_, hauth, _, hne, _, hdl, _, hassets, hopen⟩ := h
  exact ⟨hauth, hne, hdl, validateAssets_ok hassets, hopen⟩

theorem createScheduled_ok {sender recipient arbiter : Address} {assets : List AssetAmount}
    {schedule : ReleaseSchedule} {deadline : UInt64} {id : ℕ}
    (h : createScheduled H env s sender recipient arbiter assets schedule deadline
      = .ok (id, s')) :
    ∃ effectiveDeadline, sender ∈ env.auths ∧ recipient ≠ sender ∧ ValidAssets s assets ∧
      schedule.endTime ≤ effectiveDeadline ∧
      openFunded H s ⟨sender, recipient, arbiter, assets, .funded, effectiveDeadline, 0, 0, 0,
        schedule, 0, [], 0, 0⟩ = .ok (id, s') := by
  simp only [createScheduled, bind_eq_ok, requireAuth_eq_ok, require_eq_ok] at h
  obtain ⟨_, hauth, _, hne, _, hassets, _, _, _, _, _, hdl, hopen⟩ := h
  exact ⟨_, hauth, hne, validateAssets_ok hassets, hdl, hopen⟩

theorem initializeTimelock_ok {sender recipient arbiter : Address} {assets : List AssetAmount}
    {unlockTime gracePeriod : UInt64} {id : ℕ}
    (h : initializeTimelock H env s sender recipient arbiter assets unlockTime gracePeriod
      = .ok (id, s')) :
    sender ∈ env.auths ∧ recipient ≠ sender ∧ ValidAssets s assets ∧ id = s.getCount + 1 ∧
      s' = { s with count := some id }.storeEscrow id ⟨sender, recipient, arbiter, assets,
        .created, unlockTime, gracePeriod, 0, 0, ⟨.cliff, env.timestamp, unlockTime, unlockTime⟩,
        0, [], 0, 0⟩ := by
  simp only [initializeTimelock, bind_eq_ok, requireAuth_eq_ok, require_eq_ok, pure_eq_ok,
    Prod.mk.injEq] at h
  obtain ⟨_, hauth, _, hne, _, _, _, hassets, rfl, rfl⟩ := h
  exact ⟨hauth, hne, validateAssets_ok hassets, rfl, rfl⟩

theorem fund_ok {sender : Address} {id : ℕ} (h : fund H env s sender id = .ok s') :
    ∃ e w total, sender ∈ env.auths ∧ s.escrow id = some e ∧ e.sender = sender ∧
      e.state = .created ∧ pullAssets H sender s.world 0 e.assets = .ok (w, total) ∧
      s' = (s.recordInflow w (depositLegs id sender e.assets)).storeEscrow id
        { e with fundedAmount := total, state := .funded } := by
  simp only [fund, bind_eq_ok, requireAuth_eq_ok, require_eq_ok, loadEscrow_eq_ok, Prod.exists,
    pure_eq_ok] at h
  obtain ⟨_, hauth, e, he, _, hsender, _, hstate, _, _, w, total, hpull, rfl⟩ := h
  exact ⟨e, w, total, hauth, he, hsender, hstate, hpull, rfl⟩

theorem depositWithMilestones_ok {sender recipient arbiter asset : Address} {amount : ℤ}
    {deadline : UInt64} {milestones : List ℕ} {id : ℕ}
    (h : depositWithMilestones H env s sender recipient arbiter asset amount deadline milestones
      = .ok (id, s')) :
    ∃ w, sender ∈ env.auths ∧ 0 < amount ∧ recipient ≠ sender ∧
      totalBps 0 milestones = .ok 10000 ∧ id = s.getCount + 1 ∧
      H.transfer s.world asset sender H.self amount = .ok w ∧
      s' = (({ s with count := some id }.recordInflow w
        [⟨id, asset, sender, amount⟩]).storeMilestones id
        ⟨milestones.zipIdx.map fun (bps, i) => ⟨i, bps, .pending⟩, 0, false⟩).storeEscrow id
        ⟨sender, recipient, arbiter, [⟨asset, amount⟩], .funded, deadline, 0, 0, amount,
          .unscheduled, 0, [], 0, 0⟩ := by
  simp only [depositWithMilestones, bind_eq_ok, requireAuth_eq_ok, requirePositiveAmount_eq_ok,
    requireTokenApproved_eq_ok, require_eq_ok, TokenHost.transferOrTrap_eq_ok, pure_eq_ok,
    Prod.mk.injEq] at h
  obtain ⟨_, hauth, _, hpos, _, _, _, hne, _, _, _, _, bps, hbps, _, rfl, w, htransfer, rfl, rfl⟩ := h
  exact ⟨w, hauth, hpos, hne, hbps, rfl, htransfer, rfl⟩

/-! ## Payouts to the recipient -/

theorem disburse_ok {id : ℕ} {e : Escrow} {units r : ℤ}
    (h : disburse H s id e units = .ok (r, s')) :
    ∃ w legs, r = e.releasedAmount + units ∧
      sendShares H id e.recipient e.fundedAmount units s.world e.assets = .ok (w, legs) ∧
      s' = (s.storeEscrow id { e with
        releasedAmount := r
        state := if r = e.fundedAmount then .released else e.state }).recordPayout
          w legs id e.recipient units := by
  simp only [disburse, bind_eq_ok, checkedAdd_eq_ok, Prod.exists, pure_eq_ok, Prod.mk.injEq] at h
  obtain ⟨_, ⟨_, rfl⟩, w, legs, hsend, rfl, rfl⟩ := h
  exact ⟨w, legs, rfl, hsend, rfl⟩

/-- A positive claimable amount is what has vested and was not released. -/
theorem calculateClaimableAmount_pos {e : Escrow} {now : UInt64} {c : ℤ}
    (h : calculateClaimableAmount e now = .ok c) (hc : 0 < c) :
    e.schedule.releaseType ≠ .none ∧
      calculateVestedAmount e.fundedAmount e.schedule now = .ok (e.releasedAmount + c) := by
  unfold calculateClaimableAmount at h
  split at h
  · rename_i hscheduled
    refine ⟨hscheduled, ?_⟩
    simp only [bind_eq_ok, checkedSub_eq_ok] at h
    obtain ⟨vested, hvested, _, ⟨_, rfl⟩, h⟩ := h
    split at h
    · cases h
      exact absurd hc (lt_irrefl 0)
    · cases h
      rw [hvested, add_sub_cancel]
  · cases h
    exact absurd hc (lt_irrefl 0)

theorem withdraw_ok {caller : Address} {id : ℕ} {amount r : ℤ}
    (h : withdraw H env s caller id amount = .ok (r, s')) :
    ∃ e claimable, caller ∈ env.auths ∧ 0 < amount ∧ s.escrow id = some e ∧
      s.milestones id = none ∧ e.recipient = caller ∧ e.state = .funded ∧
      calculateClaimableAmount e env.timestamp = .ok claimable ∧ amount ≤ claimable ∧
      disburse H s id e amount = .ok (r, s') := by
  simp only [withdraw, bind_eq_ok, requireAuth_eq_ok, requirePositiveAmount_eq_ok,
    loadEscrow_eq_ok, rejectMilestoneSettlement_eq_ok, require_eq_ok] at h
  obtain ⟨_, hauth, _, hpos, e, he, _, hms, _, hrecipient, _, hstate, claimable, hclaim, _, _, _,
    hle, _, _, hdisburse⟩ := h
  exact ⟨e, claimable, hauth, hpos, he, hms, hrecipient, hstate, hclaim, hle, hdisburse⟩

/-- What `claim` pays on a funded escrow, by the two kinds of schedule. -/
theorem claimableUnits_ok {e : Escrow} {now : UInt64} {c : ℤ}
    (h : claimableUnits e now = .ok c) :
    (e.schedule.releaseType ≠ .none ∧ calculateClaimableAmount e now = .ok c) ∨
      (e.schedule.releaseType = .none ∧
        asU64 (asI128 e.deadline + asI128 e.gracePeriod) ≤ now ∧
        c = e.fundedAmount - e.releasedAmount) := by
  unfold claimableUnits at h
  split at h
  · rename_i hscheduled
    exact .inl ⟨hscheduled, h⟩
  · rename_i hunscheduled
    simp only [bind_eq_ok, graceEnd_eq_ok, require_eq_ok, checkedSub_eq_ok] at h
    obtain ⟨_, rfl, _, hgrace, _, rfl⟩ := h
    exact .inr ⟨not_not.1 hunscheduled, hgrace, rfl⟩

theorem claim_ok {caller : Address} {id : ℕ} {r : ℤ}
    (h : claim H env s caller id = .ok (r, s')) :
    ∃ e, caller ∈ env.auths ∧ s.escrow id = some e ∧ s.milestones id = none ∧
      e.recipient = caller ∧
      ((e.state = .funded ∧ ∃ units r', claimableUnits e env.timestamp = .ok units ∧ 0 < units ∧
          disburse H s id e units = .ok (r', s')) ∨
        (e.state = .created ∧
          asU64 (asI128 e.deadline + asI128 e.gracePeriod) ≤ env.timestamp ∧
          ∃ w legs, transferAll H s id e e.recipient (e.fundedAmount - e.releasedAmount)
              = .ok (w, legs) ∧
            s' = (s.storeEscrow id { e with state := .released }).recordPayout w legs id
              e.recipient (e.fundedAmount - e.releasedAmount))) := by
  simp only [claim, bind_eq_ok, requireAuth_eq_ok, loadEscrow_eq_ok,
    rejectMilestoneSettlement_eq_ok, require_eq_ok] at h
  obtain ⟨_, hauth, e, he, _, hms, _, hrecipient, _, hstate, h⟩ := h
  refine ⟨e, hauth, he, hms, hrecipient, ?_⟩
  split at h
  · rename_i hfunded
    simp only [bind_eq_ok, require_eq_ok, Prod.exists, pure_eq_ok, Prod.mk.injEq] at h
    obtain ⟨units, hunits, _, hpos, _, _, r', _, hdisburse, _, rfl⟩ := h
    exact .inl ⟨hfunded, units, r', hunits, hpos, hdisburse⟩
  · rename_i hfunded
    simp only [bind_eq_ok, graceEnd_eq_ok, require_eq_ok, checkedSub_eq_ok, Prod.exists,
      pure_eq_ok, Prod.mk.injEq] at h
    obtain ⟨_, rfl, _, hgrace, _, _, _, ⟨_, rfl⟩, w, legs, hsend, _, rfl⟩ := h
    exact .inr ⟨hstate.resolve_left hfunded, hgrace, w, legs, hsend, rfl⟩

/-- What the release paths check of a schedule: its cliff has passed, and on a
linear one as much as is outstanding has vested. -/
def Unlocked (e : Escrow) (now : UInt64) : Prop :=
  match e.schedule.releaseType with
  | .none => True
  | .cliff => e.schedule.cliffTime ≤ now
  | .linear => e.schedule.cliffTime ≤ now ∧
      ∃ vested, calculateVestedAmount e.fundedAmount e.schedule now = .ok vested ∧
        e.fundedAmount - e.releasedAmount ≤ vested

theorem requireReleaseUnlocked_ok {e : Escrow} {now : UInt64} {releaseAmount : ℤ} {u : Unit}
    (h : requireReleaseUnlocked e now releaseAmount = .ok u) : Unlocked e now := by
  unfold requireReleaseUnlocked at h
  unfold Unlocked
  cases htype : e.schedule.releaseType with
  | none => exact trivial
  | cliff =>
      simp only [htype] at h ⊢
      exact require_eq_ok.1 h
  | linear =>
      simp only [htype, bind_eq_ok, require_eq_ok, checkedSub_eq_ok] at h ⊢
      obtain ⟨_, hcliff, vested, hvested, _, _, _, ⟨_, rfl⟩, hle⟩ := h
      exact ⟨hcliff, vested, hvested, hle⟩

theorem requireOverrideUnlocked_ok {e : Escrow} {now : UInt64} {u : Unit}
    (h : requireOverrideUnlocked e now = .ok u) : Unlocked e now := by
  unfold requireOverrideUnlocked at h
  unfold Unlocked
  cases htype : e.schedule.releaseType with
  | none => exact trivial
  | cliff =>
      simp only [htype] at h ⊢
      exact require_eq_ok.1 h
  | linear =>
      simp only [htype, bind_eq_ok, require_eq_ok, checkedSub_eq_ok] at h ⊢
      obtain ⟨_, hcliff, _, ⟨_, rfl⟩, vested, hvested, hle⟩ := h
      exact ⟨hcliff, vested, hvested, hle⟩

theorem release_ok {arbiter : Address} {id : ℕ} {releaseAmount : ℤ}
    (h : release H env s arbiter id releaseAmount = .ok s') :
    ∃ e w legs, arbiter ∈ env.auths ∧ s.escrow id = some e ∧ e.arbiter = arbiter ∧
      e.state = .funded ∧ s.milestones id = none ∧
      Unlocked e env.timestamp ∧
      env.timestamp < asU64 (asI128 e.deadline + asI128 e.gracePeriod) ∧
      transferAll H s id e e.recipient (e.fundedAmount - e.releasedAmount) = .ok (w, legs) ∧
      s' = (s.storeEscrow id
        { e with releasedAmount := e.fundedAmount, state := .released }).recordPayout w legs id
          e.recipient (e.fundedAmount - e.releasedAmount) := by
  simp only [release, bind_eq_ok, requireAuth_eq_ok, loadEscrow_eq_ok,
    rejectMilestoneSettlement_eq_ok, require_eq_ok, graceEnd_eq_ok, checkedSub_eq_ok, Prod.exists,
    pure_eq_ok] at h
  obtain ⟨_, hauth, e, he, _, harbiter, _, hstate, _, hms, _, hunlocked, _, rfl, _, hgrace, _,
    ⟨_, rfl⟩, _, _, _, _, w, legs, hsend, rfl⟩ := h
  exact ⟨e, w, legs, hauth, he, harbiter, hstate, hms, requireReleaseUnlocked_ok hunlocked, hgrace,
    hsend, rfl⟩

theorem overrideRelease_ok {id : ℕ} {nonce : UInt64} {signatures : List OverrideSignature}
    (h : overrideRelease H env s id nonce signatures = .ok s') :
    ∃ e w legs, s.escrow id = some e ∧ s.milestones id = none ∧ e.state = .funded ∧
      env.timestamp < e.deadline ∧ Unlocked e env.timestamp ∧
      transferAll H s id e e.recipient (e.fundedAmount - e.releasedAmount) = .ok (w, legs) ∧
      s' = (s.storeEscrow id { e with overrideNonce := nonce, state := .released }).recordPayout
        w legs id e.recipient (e.fundedAmount - e.releasedAmount) := by
  simp only [overrideRelease, bind_eq_ok, loadEscrow_eq_ok, rejectMilestoneSettlement_eq_ok,
    require_eq_ok, checkedSub_eq_ok, Prod.exists, pure_eq_ok] at h
  obtain ⟨e, he, _, hms, _, _, _, hstate, _, hdl, _, hunlocked, _, _, _, _, _, _, _, _, _, _, _,
    ⟨_, rfl⟩, w, legs, hsend, rfl⟩ := h
  exact ⟨e, w, legs, he, hms, hstate, hdl, requireOverrideUnlocked_ok hunlocked, hsend, rfl⟩

/-! ## Expiry and the sender's exits -/

theorem expire_ok {id : ℕ} (h : expire H env s id = .ok s') :
    ∃ e, s.escrow id = some e ∧ e.state = .funded ∧
      asU64 (asI128 e.deadline + asI128 e.gracePeriod) ≤ env.timestamp ∧
      s' = s.storeEscrow id { e with state := .expired } := by
  simp only [expire, bind_eq_ok, loadEscrow_eq_ok, require_eq_ok, graceEnd_eq_ok, pure_eq_ok] at h
  obtain ⟨e, he, _, hstate, _, rfl, _, hgrace, rfl⟩ := h
  exact ⟨e, he, hstate, hgrace, rfl⟩

/-- What the three post-grace exits of the sender have in common. -/
structure SenderExit (env : Env H.self) (s s' : State World) (caller : Address) (id : ℕ)
    (e : Escrow) (w : World) (legs : List Leg) : Prop where
  authorized : caller ∈ env.auths
  record : s.escrow id = some e
  milestones : s.milestones id = none
  sender : e.sender = caller
  grace : asU64 (asI128 e.deadline + asI128 e.gracePeriod) ≤ env.timestamp
  window : closesAt e = 0 ∨ env.timestamp < closesAt e
  post : s' = (s.storeEscrow id { e with state := .refunded }).recordPayout w legs id e.sender
    (e.fundedAmount - e.releasedAmount)

theorem refund_ok {caller : Address} {id : ℕ} (h : refund H env s caller id = .ok s') :
    ∃ e w legs, SenderExit env s s' caller id e w legs ∧
      (e.state = .funded ∨ e.state = .expired) ∧ e.deadline ≤ env.timestamp ∧
      returnRemaining H s id e (e.fundedAmount - e.releasedAmount) = .ok (w, legs) := by
  simp only [refund, bind_eq_ok, requireAuth_eq_ok, loadEscrow_eq_ok,
    rejectMilestoneSettlement_eq_ok, require_eq_ok, graceEnd_eq_ok, requireRefundWindowOpen_eq_ok,
    checkedSub_eq_ok, Prod.exists, pure_eq_ok] at h
  obtain ⟨_, hauth, e, he, _, hms, _, hsender, _, hstate, _, hdl, _, rfl, _, hgrace, _, hwindow, _,
    ⟨_, rfl⟩, w, legs, hsend, rfl⟩ := h
  exact ⟨e, w, legs, ⟨hauth, he, hms, hsender, hgrace, hwindow, rfl⟩, hstate, hdl, hsend⟩

theorem refundTimelock_ok {caller : Address} {id : ℕ}
    (h : refundTimelock H env s caller id = .ok s') :
    ∃ e w legs, SenderExit env s s' caller id e w legs ∧
      (e.state = .created ∨ e.state = .funded ∨ e.state = .expired) ∧
      returnRemaining H s id e (e.fundedAmount - e.releasedAmount) = .ok (w, legs) := by
  simp only [refundTimelock, bind_eq_ok, requireAuth_eq_ok, loadEscrow_eq_ok,
    rejectMilestoneSettlement_eq_ok, require_eq_ok, graceEnd_eq_ok, requireRefundWindowOpen_eq_ok,
    checkedSub_eq_ok, Prod.exists, pure_eq_ok] at h
  obtain ⟨_, hauth, e, he, _, hms, _, hsender, _, hstate, _, rfl, _, hgrace, _, hwindow, _,
    ⟨_, rfl⟩, w, legs, hsend, rfl⟩ := h
  exact ⟨e, w, legs, ⟨hauth, he, hms, hsender, hgrace, hwindow, rfl⟩, hstate, hsend⟩

theorem reclaim_ok {caller : Address} {id : ℕ} (h : reclaim H env s caller id = .ok s') :
    ∃ e w legs, SenderExit env s s' caller id e w legs ∧
      (e.state = .funded ∨ e.state = .expired) ∧ e.deadline ≤ env.timestamp ∧
      transferAll H s id e e.sender (e.fundedAmount - e.releasedAmount) = .ok (w, legs) := by
  simp only [reclaim, bind_eq_ok, requireAuth_eq_ok, loadEscrow_eq_ok,
    rejectMilestoneSettlement_eq_ok, require_eq_ok, graceEnd_eq_ok, requireRefundWindowOpen_eq_ok,
    checkedSub_eq_ok, Prod.exists, pure_eq_ok] at h
  obtain ⟨_, hauth, e, he, _, hms, _, hsender, _, hstate, _, hdl, _, rfl, _, hgrace, _, hwindow, _,
    ⟨_, rfl⟩, w, legs, hsend, rfl⟩ := h
  exact ⟨e, w, legs, ⟨hauth, he, hms, hsender, hgrace, hwindow, rfl⟩, hstate, hdl, hsend⟩

theorem close_ok {caller : Address} {id : ℕ} (h : close H env s caller id = .ok s') :
    ∃ e, s.escrow id = some e ∧ (e.state = .released ∨ e.state = .refunded) ∧
      s' = s.storeEscrow id { e with state := .closed } := by
  simp only [close, bind_eq_ok, requireAuth_eq_ok, loadEscrow_eq_ok, require_eq_ok,
    pure_eq_ok] at h
  obtain ⟨_, _, e, he, _, hstate, _, _, rfl⟩ := h
  exact ⟨e, he, hstate, rfl⟩

/-! ## Milestones -/

/-- The search returns a milestone that is on the schedule, at its position, under the index
asked for. -/
theorem findMilestone_spec {index i : ℕ} {m : Milestone} {milestones : List Milestone}
    (h : findMilestone index milestones = some (i, m)) :
    milestones[i]? = some m ∧ m.index = index := by
  -- the accumulator only ever holds such an entry of the enumerated list
  have hfold : ∀ (l : List (Milestone × ℕ)) (found : Option (ℕ × Milestone)),
      (∀ p, found = some p → milestones[p.1]? = some p.2 ∧ p.2.index = index) →
      (∀ p ∈ l, milestones[p.2]? = some p.1) →
      l.foldl (fun found p => if p.1.index = index then some (p.2, p.1) else found) found
        = some (i, m) → milestones[i]? = some m ∧ m.index = index := by
    intro l
    induction l with
    | nil =>
        intro found hfound _ h
        exact hfound (i, m) h
    | cons p l ih =>
        intro found hfound hl h
        rw [List.forall_mem_cons] at hl
        refine ih _ ?_ hl.2 h
        intro q hq
        dsimp only at hq
        split at hq
        · rename_i hindex
          cases hq
          exact ⟨hl.1, hindex⟩
        · exact hfound q hq
  refine hfold _ none (by simp) ?_ h
  intro p hp
  exact List.mem_zipIdx_iff_getElem?.1 hp

theorem findMilestone_some {index i : ℕ} {m : Milestone} {milestones : List Milestone}
    (h : findMilestone index milestones = some (i, m)) : milestones[i]? = some m :=
  (findMilestone_spec h).1

theorem loadMilestone_ok {caller : Address} {id index i : ℕ} {e : Escrow} {set : MilestoneSet}
    {m : Milestone} (h : loadMilestone H env s caller id index = .ok (e, set, i, m)) :
    caller ∈ env.auths ∧ s.escrow id = some e ∧ e.arbiter = caller ∧
      s.milestones id = some set ∧ set.cancelled = false ∧
      findMilestone index set.milestones = some (i, m) := by
  simp only [loadMilestone, bind_eq_ok, requireAuth_eq_ok, intoMilestone_eq_ok, loadEscrow_eq_ok,
    requireMilestone_eq_ok, okOrMilestone_eq_ok, Prod.exists, pure_eq_ok, Prod.mk.injEq] at h
  obtain ⟨_, hauth, _, he, _, harbiter, _, hset, _, hlive, _, _, hfind, rfl, rfl, rfl, rfl⟩ := h
  exact ⟨hauth, he, harbiter, hset, hlive, hfind⟩

/-- What a milestone approval pays: its floored share, or the rest when it is the
last one outstanding. -/
def milestonePayout (e : Escrow) (set : MilestoneSet) (m : Milestone) : ℤ :=
  if set.milestones.countP (·.status ≠ .completed) = 1 then
    totalAmount e.assets - set.releasedAmount
  else (totalAmount e.assets * m.releaseBps).tdiv 10000

theorem releaseMilestone_ok {caller : Address} {id index : ℕ}
    (h : releaseMilestone H env s caller id index = .ok s') :
    ∃ e set i m primary w, s.escrow id = some e ∧ s.milestones id = some set ∧
      set.cancelled = false ∧ e.state = .funded ∧ set.milestones[i]? = some m ∧
      m.status = .pending ∧ e.assets.head? = some primary ∧
      H.transfer s.world primary.asset H.self e.recipient (milestonePayout e set m) = .ok w ∧
      let milestones := set.milestones.set i { m with status := .completed }
      let releasedAmount := set.releasedAmount + milestonePayout e set m
      let s₁ := (s.recordPayout w
        [⟨id, primary.asset, e.recipient, milestonePayout e set m⟩] id e.recipient
        (milestonePayout e set m)).storeMilestones id { set with milestones, releasedAmount }
      s' = if milestones.all (·.status = .completed) then
        s₁.storeEscrow id { e with releasedAmount, state := .released } else s₁ := by
  simp only [releaseMilestone, bind_eq_ok, Prod.exists, requireMilestone_eq_ok,
    intoMilestone_eq_ok, checkedMul_eq_ok, checkedDiv_eq_ok, checkedSub_eq_ok, checkedAdd_eq_ok,
    orFail_eq_ok, TokenHost.transferOrTrap_eq_ok] at h
  obtain ⟨e, set, i, m, hload, _, hnotDone, _, hnotDisputed, _, hstate, _, ⟨_, rfl⟩, _,
    ⟨_, _, rfl⟩, _, ⟨_, rfl⟩, primary, hprimary, w, htransfer, _, ⟨_, rfl⟩, h⟩ := h
  obtain ⟨_, he, _, hset, hlive, hfind⟩ := loadMilestone_ok hload
  have hpending : m.status = .pending := by
    cases hm : m.status with
    | pending => rfl
    | completed => exact absurd hm hnotDone
    | disputed => exact absurd hm hnotDisputed
  refine ⟨e, set, i, m, primary, w, he, hset, hlive, hstate, findMilestone_some hfind, hpending,
    hprimary, htransfer, ?_⟩
  split at h <;> cases h
  · rename_i hall
    exact (if_pos hall).symm
  · rename_i hall
    exact (if_neg hall).symm

/-- Disputing and resolving a milestone only move one that is not completed
between `pending` and `disputed`. -/
def MilestoneMarked (s s' : State World) (id : ℕ) : Prop :=
  ∃ e set i m status, s.escrow id = some e ∧ e.state = .funded ∧ s.milestones id = some set ∧
    set.cancelled = false ∧ set.milestones[i]? = some m ∧ m.status ≠ .completed ∧
    status ≠ .completed ∧
    s' = s.storeMilestones id { set with milestones := set.milestones.set i { m with status } }

theorem disputeMilestone_ok {caller : Address} {id index : ℕ}
    (h : disputeMilestone H env s caller id index = .ok s') : MilestoneMarked s s' id := by
  simp only [disputeMilestone, bind_eq_ok, Prod.exists, requireMilestone_eq_ok, pure_eq_ok] at h
  obtain ⟨e, set, i, m, hload, _, hnotDone, _, _, _, hstate, rfl⟩ := h
  obtain ⟨_, he, _, hset, hlive, hfind⟩ := loadMilestone_ok hload
  exact ⟨e, set, i, m, .disputed, he, hstate, hset, hlive, findMilestone_some hfind, hnotDone,
    by decide, rfl⟩

theorem resolveMilestone_ok {caller : Address} {id index : ℕ}
    (h : resolveMilestone H env s caller id index = .ok s') : MilestoneMarked s s' id := by
  simp only [resolveMilestone, bind_eq_ok, Prod.exists, requireMilestone_eq_ok, pure_eq_ok] at h
  obtain ⟨e, set, i, m, hload, _, hnotDone, _, _, _, hstate, rfl⟩ := h
  obtain ⟨_, he, _, hset, hlive, hfind⟩ := loadMilestone_ok hload
  exact ⟨e, set, i, m, .pending, he, hstate, hset, hlive, findMilestone_some hfind, hnotDone,
    by decide, rfl⟩

theorem cancelMilestonesInner_ok {caller : Address} {id : ℕ} {r : ℤ}
    (h : cancelMilestonesInner H s caller id = .ok (r, s')) :
    ∃ e set w legs milestones, s.escrow id = some e ∧ s.milestones id = some set ∧
      set.cancelled = false ∧ (e.state = .funded ∨ e.state = .expired) ∧
      returnRemaining H s id e (e.fundedAmount - set.releasedAmount) = .ok (w, legs) ∧
      s' = ((s.storeMilestones id { set with milestones, cancelled := true }).storeEscrow id
        { e with state := .refunded }).recordPayout w legs id e.sender
          (e.fundedAmount - set.releasedAmount) := by
  simp only [cancelMilestonesInner, bind_eq_ok, loadEscrow_eq_ok, require_eq_ok, okOr_eq_ok,
    checkedSub_eq_ok, Prod.exists, pure_eq_ok, Prod.mk.injEq] at h
  obtain ⟨e, he, _, _, set, hset, _, hlive, _, hstate, _, ⟨_, rfl⟩, w, legs, hsend, _, rfl⟩ := h
  exact ⟨e, set, w, legs, _, he, hset, hlive, hstate, hsend, rfl⟩

theorem cancel_ok {caller : Address} {id : ℕ} (h : cancel H env s caller id = .ok s') :
    (∃ r, cancelMilestonesInner H s caller id = .ok (r, s')) ∨
      ∃ e w legs, s.escrow id = some e ∧ s.milestones id = none ∧
        (e.state = .funded ∨ e.state = .created) ∧ env.timestamp < e.deadline ∧
        returnRemaining H s id e (e.fundedAmount - e.releasedAmount) = .ok (w, legs) ∧
        s' = (s.storeEscrow id { e with state := .refunded }).recordPayout w legs id e.sender
          (e.fundedAmount - e.releasedAmount) := by
  simp only [cancel, bind_eq_ok, requireAuth_eq_ok] at h
  obtain ⟨_, _, h⟩ := h
  split at h
  · simp only [bind_eq_ok, Prod.exists, pure_eq_ok] at h
    obtain ⟨r, _, hcancel, rfl⟩ := h
    exact .inl ⟨r, hcancel⟩
  · rename_i hms
    simp only [bind_eq_ok, loadEscrow_eq_ok, require_eq_ok, checkedSub_eq_ok, Prod.exists,
      pure_eq_ok] at h
    obtain ⟨e, he, _, _, _, hstate, _, hdl, _, _, _, ⟨_, rfl⟩, w, legs, hsend, rfl⟩ := h
    exact .inr ⟨e, w, legs, he, not_not.1 hms, hstate, hdl, hsend, rfl⟩

/-! ## The registers -/

/-- The approved tokens, the release conditions and their approvals are as they were. -/
structure KeepsRegisters (s s' : State World) : Prop where
  approvedToken : s'.approvedToken = s.approvedToken
  approvedTokenList : s'.approvedTokenList = s.approvedTokenList
  releaseCondition : s'.releaseCondition = s.releaseCondition
  releaseApproval : s'.releaseApproval = s.releaseApproval

/-- The calls that write the approved tokens or a release condition. -/
def Call.EditsRegister : Call → Prop
  | .approveToken .. | .revokeToken .. | .createWithReleaseCondition .. | .approveRelease .. => True
  | _ => False

theorem openFunded_registers {e : Escrow} {id : ℕ} (h : openFunded H s e = .ok (id, s')) :
    KeepsRegisters s s' := by
  obtain ⟨_, _, _, _, rfl⟩ := openFunded_ok h
  exact ⟨rfl, rfl, rfl, rfl⟩

theorem disburse_registers {id : ℕ} {e : Escrow} {units r : ℤ}
    (h : disburse H s id e units = .ok (r, s')) : KeepsRegisters s s' := by
  obtain ⟨_, _, _, _, rfl⟩ := disburse_ok h
  exact ⟨rfl, rfl, rfl, rfl⟩

/-- **Every other call leaves the registers alone.** -/
theorem exec_registers {call : Call} (hcall : ¬ call.EditsRegister)
    (h : exec H env s call = .ok s') : KeepsRegisters s s' := by
  cases call with
  | approveToken | revokeToken | createWithReleaseCondition | approveRelease =>
      exact absurd trivial hcall
  | initializeContract =>
      simp only [exec, initializeContract, bind_eq_ok, pure_eq_ok] at h
      obtain ⟨_, _, rfl⟩ := h
      exact ⟨rfl, rfl, rfl, rfl⟩
  | create =>
      obtain ⟨_, h⟩ := snd_map_ok h
      exact openFunded_registers (createWithRefundWindow_ok h).2.2.2.2
  | createWithRefundWindow =>
      obtain ⟨_, h⟩ := snd_map_ok h
      exact openFunded_registers (createWithRefundWindow_ok h).2.2.2.2
  | createTimelock =>
      obtain ⟨_, h⟩ := snd_map_ok h
      exact openFunded_registers (createTimelock_ok h).2.2.2.2
  | createScheduled =>
      obtain ⟨_, h⟩ := snd_map_ok h
      obtain ⟨_, _, _, _, _, hopen⟩ := createScheduled_ok h
      exact openFunded_registers hopen
  | initializeTimelock =>
      obtain ⟨_, h⟩ := snd_map_ok h
      obtain ⟨_, _, _, _, rfl⟩ := initializeTimelock_ok h
      exact ⟨rfl, rfl, rfl, rfl⟩
  | fund =>
      obtain ⟨_, _, _, _, _, _, _, _, rfl⟩ := fund_ok h
      exact ⟨rfl, rfl, rfl, rfl⟩
  | withdraw =>
      obtain ⟨_, h⟩ := snd_map_ok h
      obtain ⟨_, _, _, _, _, _, _, _, _, _, hdisburse⟩ := withdraw_ok h
      exact disburse_registers hdisburse
  | claim =>
      obtain ⟨_, h⟩ := snd_map_ok h
      obtain ⟨_, _, _, _, _, ⟨_, _, _, _, _, hdisburse⟩ | ⟨_, _, _, _, _, rfl⟩⟩ := claim_ok h
      · exact disburse_registers hdisburse
      · exact ⟨rfl, rfl, rfl, rfl⟩
  | release =>
      obtain ⟨_, _, _, _, _, _, _, _, _, _, _, rfl⟩ := release_ok h
      exact ⟨rfl, rfl, rfl, rfl⟩
  | overrideRelease =>
      obtain ⟨_, _, _, _, _, _, _, _, _, rfl⟩ := overrideRelease_ok h
      exact ⟨rfl, rfl, rfl, rfl⟩
  | expire =>
      obtain ⟨_, _, _, _, rfl⟩ := expire_ok h
      exact ⟨rfl, rfl, rfl, rfl⟩
  | refund =>
      obtain ⟨_, _, _, hexit, _⟩ := refund_ok h
      obtain rfl := hexit.post
      exact ⟨rfl, rfl, rfl, rfl⟩
  | refundTimelock =>
      obtain ⟨_, _, _, hexit, _⟩ := refundTimelock_ok h
      obtain rfl := hexit.post
      exact ⟨rfl, rfl, rfl, rfl⟩
  | reclaim =>
      obtain ⟨_, _, _, hexit, _⟩ := reclaim_ok h
      obtain rfl := hexit.post
      exact ⟨rfl, rfl, rfl, rfl⟩
  | cancel =>
      rcases cancel_ok h with ⟨_, hcancel⟩ | ⟨_, _, _, _, _, _, _, _, rfl⟩
      · obtain ⟨_, _, _, _, _, _, _, _, _, _, rfl⟩ := cancelMilestonesInner_ok hcancel
        exact ⟨rfl, rfl, rfl, rfl⟩
      · exact ⟨rfl, rfl, rfl, rfl⟩
  | close =>
      obtain ⟨_, _, _, rfl⟩ := close_ok h
      exact ⟨rfl, rfl, rfl, rfl⟩
  | depositWithMilestones =>
      obtain ⟨_, h⟩ := snd_map_ok h
      obtain ⟨_, _, _, _, _, _, _, rfl⟩ := depositWithMilestones_ok h
      exact ⟨rfl, rfl, rfl, rfl⟩
  | releaseMilestone =>
      obtain ⟨_, _, _, _, _, _, _, _, _, _, _, _, _, _, hs'⟩ := releaseMilestone_ok h
      subst hs'
      split <;> exact ⟨rfl, rfl, rfl, rfl⟩
  | disputeMilestone =>
      obtain ⟨_, _, _, _, _, _, _, _, _, _, _, _, rfl⟩ := disputeMilestone_ok h
      exact ⟨rfl, rfl, rfl, rfl⟩
  | resolveMilestone =>
      obtain ⟨_, _, _, _, _, _, _, _, _, _, _, _, rfl⟩ := resolveMilestone_ok h
      exact ⟨rfl, rfl, rfl, rfl⟩
  | cancelRemainingMilestones =>
      obtain ⟨_, h⟩ := snd_map_ok h
      simp only [cancelRemainingMilestones, bind_eq_ok] at h
      obtain ⟨_, _, hcancel⟩ := h
      obtain ⟨_, _, _, _, _, _, _, _, _, _, rfl⟩ := cancelMilestonesInner_ok hcancel
      exact ⟨rfl, rfl, rfl, rfl⟩

end EscrowContract
end Astroid
