import Astroid.Escrow.Accounting

/-!
# The release window and the refund window

Write `D` for `deadline + grace_period`, computed without a bound.  The arbiter
releases before `D`; the marker, the sender's exits and the recipient's claim on
an unscheduled escrow open at `D` (`WindowsDisjoint`).  `grace_end` adds the two
in an `i128`, where the sum always fits, and casts it back to `u64`, where it may
not.  So the law holds of an escrow exactly when `D` is a `u64`
(`windows_disjoint_iff`).
-/

namespace Astroid
namespace EscrowContract

open Outcome

variable {World : Type} {H : EscrowHost World} {s : State World}

/-- `deadline + grace_period`, without a bound. -/
def Escrow.refundsOpen (e : Escrow) : ℕ := e.deadline.toNat + e.gracePeriod.toNat

variable (H) in
/-- One of the sender's three ways to take back the rest of escrow `id` returns. -/
def SenderReclaims (env : Env H.self) (s : State World) (caller : Address) (id : ℕ) : Prop :=
  ∃ s', refund H env s caller id = .ok s' ∨ refundTimelock H env s caller id = .ok s' ∨
    reclaim H env s caller id = .ok s'

variable (H) in
/-- The release window of the record `e` under `id` ends where its refund window
begins. -/
structure WindowsDisjoint (s : State World) (id : ℕ) (e : Escrow) : Prop where
  releaseBefore : ∀ (env : Env H.self) arbiter releaseAmount s',
    release H env s arbiter id releaseAmount = .ok s' → env.timestamp.toNat < e.refundsOpen
  expireAfter : ∀ (env : Env H.self) s', expire H env s id = .ok s' →
    e.refundsOpen ≤ env.timestamp.toNat
  reclaimAfter : ∀ (env : Env H.self) caller, SenderReclaims H env s caller id →
    e.refundsOpen ≤ env.timestamp.toNat
  claimAfter : ∀ (env : Env H.self) caller r, e.schedule.releaseType = .none →
    claim H env s caller id = .ok r → e.refundsOpen ≤ env.timestamp.toNat
  exclusive : ∀ (env env' : Env H.self) arbiter releaseAmount s' caller,
    release H env s arbiter id releaseAmount = .ok s' → SenderReclaims H env' s caller id →
    env.timestamp ≠ env'.timestamp
  notEarly : ∀ (env : Env H.self) caller, SenderReclaims H env s caller id →
    e.deadline ≤ env.timestamp

/-- A sender exit that returned passed the grace gate. -/
theorem SenderReclaims.grace {env : Env H.self} {caller : Address} {id : ℕ} {e : Escrow}
    (h : SenderReclaims H env s caller id) (he : s.escrow id = some e) :
    asU64 (asI128 e.deadline + asI128 e.gracePeriod) ≤ env.timestamp := by
  obtain ⟨s', h⟩ := h
  have hexit : ∃ e₁ w legs, SenderExit env s s' caller id e₁ w legs := by
    rcases h with h | h | h
    · obtain ⟨e₁, w, legs, hexit, _⟩ := refund_ok h
      exact ⟨e₁, w, legs, hexit⟩
    · obtain ⟨e₁, w, legs, hexit, _⟩ := refundTimelock_ok h
      exact ⟨e₁, w, legs, hexit⟩
    · obtain ⟨e₁, w, legs, hexit, _⟩ := reclaim_ok h
      exact ⟨e₁, w, legs, hexit⟩
  obtain ⟨e₁, w, legs, hexit⟩ := hexit
  have hsame := hexit.record
  rw [he, Option.some.injEq] at hsame
  subst hsame
  exact hexit.grace

/-- A claim on an unscheduled escrow passed the grace gate. -/
theorem claim_grace {env : Env H.self} {caller : Address} {id : ℕ} {e : Escrow}
    {r : ℤ × State World} (h : claim H env s caller id = .ok r) (he : s.escrow id = some e)
    (htype : e.schedule.releaseType = .none) :
    asU64 (asI128 e.deadline + asI128 e.gracePeriod) ≤ env.timestamp := by
  obtain ⟨e₁, _, he₁, _, _, hclaim⟩ := claim_ok h
  rw [he, Option.some.injEq] at he₁
  subst he₁
  rcases hclaim with ⟨_, units, _, hunits, _⟩ | ⟨_, hgrace, _⟩
  · rcases claimableUnits_ok hunits with ⟨hscheduled, _⟩ | ⟨_, hgrace, _⟩
    · exact absurd htype hscheduled
    · exact hgrace
  · exact hgrace

/-- The grace gate of an escrow whose `D` is a `u64` is the comparison with `D`. -/
theorem graceEnd_le_iff {e : Escrow} (hfits : e.refundsOpen < 2 ^ 64) {now : UInt64} :
    asU64 (asI128 e.deadline + asI128 e.gracePeriod) ≤ now ↔ e.refundsOpen ≤ now.toNat := by
  rw [UInt64.le_iff_toNat_le, toNat_graceEnd, ← Escrow.refundsOpen, Nat.mod_eq_of_lt hfits]

theorem windowsDisjoint_of_fits {id : ℕ} {e : Escrow} (he : s.escrow id = some e)
    (hfits : e.refundsOpen < 2 ^ 64) : WindowsDisjoint H s id e := by
  have hrelease : ∀ (env : Env H.self) arbiter releaseAmount s',
      release H env s arbiter id releaseAmount = .ok s' → env.timestamp.toNat < e.refundsOpen := by
    intro env arbiter releaseAmount s' h
    obtain ⟨e₁, _, _, _, he₁, _, _, _, _, hgrace, _⟩ := release_ok h
    rw [he, Option.some.injEq] at he₁
    subst he₁
    by_contra hlate
    exact absurd ((graceEnd_le_iff hfits).2 (not_lt.1 hlate)) (UInt64.not_le.2 hgrace)
  have hreclaim : ∀ (env : Env H.self) caller, SenderReclaims H env s caller id →
      e.refundsOpen ≤ env.timestamp.toNat :=
    fun env caller h => (graceEnd_le_iff hfits).1 (h.grace he)
  refine ⟨hrelease, ?_, hreclaim, ?_, ?_, ?_⟩
  · intro env s' h
    obtain ⟨e₁, he₁, _, hgrace, _⟩ := expire_ok h
    rw [he, Option.some.injEq] at he₁
    subst he₁
    exact (graceEnd_le_iff hfits).1 hgrace
  · intro env caller r htype h
    exact (graceEnd_le_iff hfits).1 (claim_grace h he htype)
  · intro env env' arbiter releaseAmount s' caller h h' heq
    have hbefore := hrelease env arbiter releaseAmount s' h
    have hafter := hreclaim env' caller h'
    rw [heq] at hbefore
    omega
  · intro env caller h
    have hafter := hreclaim env caller h
    rw [UInt64.le_iff_toNat_le]
    unfold Escrow.refundsOpen at hafter
    omega

/-- An unfunded escrow can be closed out by its sender at the instant the cast
computes. -/
theorem refundTimelock_returns {id : ℕ} {e : Escrow} (he : s.escrow id = some e)
    (hstate : e.state = .created) (hms : s.milestones id = none)
    (hfunded : e.fundedAmount = 0) (hreleased : e.releasedAmount = 0) {env : Env H.self}
    (hauth : e.sender ∈ env.auths)
    (hnow : asU64 (asI128 e.deadline + asI128 e.gracePeriod) ≤ env.timestamp)
    (hwindow : closesAt e = 0 ∨ env.timestamp < closesAt e) :
    SenderReclaims H env s e.sender id := by
  have hremaining : e.fundedAmount - e.releasedAmount = 0 := by omega
  have hrange : IsI128 (e.fundedAmount - e.releasedAmount) := by
    rw [hremaining]
    decide
  refine ⟨(s.storeEscrow id { e with state := .refunded }).recordPayout s.world [] id e.sender
    (e.fundedAmount - e.releasedAmount), .inr (.inl ?_)⟩
  simp only [refundTimelock, bind_eq_ok, requireAuth_eq_ok, loadEscrow_eq_ok,
    rejectMilestoneSettlement_eq_ok, require_eq_ok, graceEnd_eq_ok,
    requireRefundWindowOpen_eq_ok, checkedSub_eq_ok, Prod.exists, pure_eq_ok]
  have hsend : returnRemaining H s id e (e.fundedAmount - e.releasedAmount)
      = .ok (s.world, []) := by
    unfold returnRemaining
    rw [hremaining, if_neg (lt_irrefl 0)]
  exact ⟨(), hauth, e, he, (), hms, (), rfl, (), .inl hstate, _, rfl, (), hnow, (), hwindow, _,
    ⟨hrange, rfl⟩, s.world, [], hsend, rfl⟩

/-- At the wrapped instant the refund window, which saturates, is still open. -/
theorem window_open_of_wrapped {e : Escrow} (hwrapped : 2 ^ 64 ≤ e.refundsOpen) :
    closesAt e = 0 ∨ asU64 (asI128 e.deadline + asI128 e.gracePeriod) < closesAt e := by
  unfold closesAt
  by_cases hunbounded : e.refundWindow = 0
  · rw [if_pos hunbounded]
    exact .inl rfl
  · rw [if_neg hunbounded]
    right
    rw [UInt64.lt_iff_toNat_lt, toNat_graceEnd, toNat_saturatingAdd, toNat_saturatingAdd]
    have hdeadline := e.deadline.toNat_lt
    have hgrace := e.gracePeriod.toNat_lt
    unfold Escrow.refundsOpen at hwrapped
    omega

/-- An escrow of 100 that is due at `deadline`, with `gracePeriod` of grace. -/
def dueAt (deadline gracePeriod : UInt64) : Script Call :=
  opening [7] ++
    [(signedBy 5 [1], .create (.account 1) (.account 2) (.account 3) [⟨.contract 7, 100⟩]
        deadline gracePeriod [] 0)]

/-- The record `dueAt` opens. -/
def dueRecord (deadline gracePeriod : UInt64) : Escrow where
  sender := .account 1
  recipient := .account 2
  arbiter := .account 3
  assets := [⟨.contract 7, 100⟩]
  state := .funded
  deadline := deadline
  gracePeriod := gracePeriod
  refundWindow := 0
  fundedAmount := 100
  schedule := .unscheduled
  releasedAmount := 0
  overrideSigners := []
  overrideThreshold := 0
  overrideNonce := 0

end EscrowContract
end Astroid
