import Astroid.Proposal.Machine
import Astroid.Shared.Transfers

/-!
# What the entrypoints do

Each entrypoint, inverted once: the guards it passed and the state it left.  Most of them
settle a stale proposal before they look at it, and are done when it was (`Expires`); a
proposal that ends otherwise gets its deposit back with the same transfer (`Ends`).
-/

namespace Astroid
namespace ProposalContract

open Outcome

variable {World : Type} {H : ProposalHost World} {env : Env H.self} {s s' : State World}
  {id : ℕ} {p p' : Proposal} {caller : Address}

/-! ## Guards that were passed -/

/-- `create` recorded `p` under the next number. -/
structure Creation (s : State World) (id : ℕ) (p : Proposal) : Prop where
  number : ∃ count, s.proposalCount = some count ∧ id = (count + 1) % 2 ^ 64
  multisig : s.multisig ≠ none
  distinct : p.approvers.Nodup
  few : p.approvers.length ≤ maxApprovers
  threshold : 0 < p.threshold
  pending : p.state = .pending
  prerequisites : p.dependencies.Nodup
  backwards : ∀ dep ∈ p.dependencies, dep < id ∧ s.proposal dep ≠ none

/-- `approve` counted the vote of `caller` and left `p'`. -/
structure Vote (H : ProposalHost World) (env : Env H.self) (s : State World) (caller : Address)
    (id : ℕ) (p p' : Proposal) (multisig : Address) (threshold previous approvals weight : ℕ) :
    Prop where
  live : p.state.isLive = true
  eligible : caller ∈ p.approvers
  multisig_eq : s.multisig = some multisig
  signer : H.isSigner s.world multisig caller = some true
  new : s.approval id caller = false
  threshold_eq : H.getThreshold s.world multisig = some threshold
  previous_eq : previousWeight H s id p = .ok previous
  unsettled : ¬ (p.state = .approved ∧ threshold ≤ previous)
  tally : liveApprovalTally H (s.storeApproval id caller) id p = .ok (approvals, weight)
  recorded : afterVote H env { p with approvals := approvals, approvalWeight := weight }
    (decide (previous < threshold ∧ threshold ≤ weight)) = .ok p'

/-- `execute` found every gate of `p` open. -/
structure Execution (H : ProposalHost World) (env : Env H.self) (s : State World) (id : ℕ)
    (p : Proposal) (multisig : Address) (threshold approvals weight : ℕ) : Prop where
  approved : p.state = .approved
  unexpired : ¬ p.IsExpired env
  tally : liveApprovalTally H s id p = .ok (approvals, weight)
  bars : (VoteBars.forProposal p).metBy approvals = true
  multisig_eq : s.multisig = some multisig
  threshold_eq : H.getThreshold s.world multisig = some threshold
  enough : threshold ≤ weight
  released : requireReleased env p.approvedAt s.timelockDelay = .ok ()
  met : ensureDependenciesMet s p = .ok ()

/-! ## Deposits -/

/-- What a live proposal holds, and for whom. -/
structure Holding where
  proposer : Address
  deposit : Option AssetAmount
  deriving DecidableEq

namespace Holding

/-- The transfer that took it in. -/
def taken (h : Holding) (self : Address) : List Transfer :=
  h.deposit.toList.map fun dep => ⟨dep.asset, h.proposer, self, dep.amount⟩

/-- The transfer that gives it back. -/
def returned (h : Holding) (self : Address) : List Transfer := (h.taken self).map Transfer.back

end Holding

def Proposal.holding (p : Proposal) : Holding := ⟨p.proposer, p.deposit.head?⟩

theorem returnDeposit_ok (h : returnDeposit H s p = .ok s') :
    ∃ w, s' = { s with world := w } ∧ H.carry s.world (p.holding.returned H.self) = .ok w := by
  unfold returnDeposit at h
  split at h
  · rename_i hdeposit
    cases h
    refine ⟨s.world, rfl, ?_⟩
    simp only [Holding.returned, Holding.taken, Proposal.holding, hdeposit]
    rfl
  · rename_i dep rest hdeposit
    simp only [bind_eq_ok, TokenHost.transferOrTrap_eq_ok, pure_eq_ok] at h
    obtain ⟨w, htransfer, rfl⟩ := h
    refine ⟨w, rfl, ?_⟩
    simp only [Holding.returned, Holding.taken, Proposal.holding, hdeposit]
    exact TokenHost.carry_single htransfer

/-- The proposal under `id` ended as `p'`, and its deposit went back. -/
def Ends (H : ProposalHost World) (s : State World) (id : ℕ) (p' : Proposal) (s' : State World) :
    Prop :=
  ∃ w, H.carry s.world (p'.holding.returned H.self) = .ok w ∧ s' = { s with world := w }.store id p'

theorem ends_of_returnDeposit {s₁ : State World} (hholding : p'.holding = p.holding)
    (h : returnDeposit H s p = .ok s₁) : Ends H s id p' (s₁.store id p') := by
  obtain ⟨w, rfl, hcarry⟩ := returnDeposit_ok h
  exact ⟨w, hholding ▸ hcarry, rfl⟩

theorem takeDeposit_ok {proposer : Address} {deposit : List AssetAmount}
    (h : takeDeposit H s proposer deposit = .ok s') :
    ∃ w, s' = { s with world := w } ∧
      H.carry s.world ((Holding.mk proposer deposit.head?).taken H.self) = .ok w := by
  cases deposit with
  | nil =>
      cases h
      exact ⟨s.world, rfl, rfl⟩
  | cons dep rest =>
      simp only [takeDeposit, bind_eq_ok, TokenHost.transferOrTrap_eq_ok, pure_eq_ok] at h
      obtain ⟨_, _, w, htransfer, rfl⟩ := h
      exact ⟨w, rfl, TokenHost.carry_single htransfer⟩

/-! ## Expiry -/

/-- **What `expire_if_due` did**, case by case. -/
theorem expireIfDue_cases {expired : Bool}
    (h : expireIfDue H env s id p = .ok (expired, p', s')) :
    (expired = false ∧ p' = p ∧ s' = s ∧ (p.state.isLive = false ∨ ¬ p.IsExpired env)) ∨
      (expired = true ∧ p.state = .expired ∧ p' = p ∧ s' = s) ∨
      (expired = true ∧ p.state.isLive = true ∧ p.IsExpired env ∧
        p' = { p with state := .expired } ∧ Ends H s id { p with state := .expired } s') := by
  unfold expireIfDue at h
  split at h
  · rename_i hstate
    cases h
    exact .inr (.inl ⟨rfl, hstate, rfl, rfl⟩)
  · split at h
    · rename_i hnot
      cases h
      exact .inl ⟨rfl, rfl, rfl, hnot⟩
    · rename_i hdue
      rw [not_or, Bool.not_eq_false, not_not] at hdue
      simp only [bind_eq_ok, pure_eq_ok, Prod.mk.injEq] at h
      obtain ⟨_, _, s₁, hreturn, rfl, rfl, rfl⟩ := h
      exact .inr (.inr ⟨rfl, hdue.1, hdue.2, rfl, ends_of_returnDeposit rfl hreturn⟩)

/-- The proposal was found stale, and the call was done. -/
def Expires (H : ProposalHost World) (env : Env H.self) (s : State World) (id : ℕ) (p : Proposal)
    (s' : State World) : Prop :=
  ∃ p', expireIfDue H env s id p = .ok (true, p', s')

theorem Expires.due (h : Expires H env s id p s') : p.state = .expired ∨ p.IsExpired env := by
  obtain ⟨_, h⟩ := h
  rcases expireIfDue_cases h with ⟨hfresh, _⟩ | ⟨_, hstate, _⟩ | ⟨_, _, hdue, _⟩
  · cases hfresh
  · exact .inl hstate
  · exact .inr hdue

/-- A record that was not found stale is the one on record. -/
theorem expireIfDue_false (h : expireIfDue H env s id p = .ok (false, p', s')) :
    p' = p ∧ s' = s := by
  rcases expireIfDue_cases h with ⟨_, rfl, rfl, _⟩ | ⟨hexpired, _⟩ | ⟨hexpired, _⟩
  · exact ⟨rfl, rfl⟩
  · cases hexpired
  · cases hexpired

/-- Before its deadline an approved proposal does not expire. -/
theorem expireIfDue_of_approved (hstate : p.state = .approved) (hunexpired : ¬ p.IsExpired env) :
    expireIfDue H env s id p = .ok (false, p, s) := by
  have hopen : p.state ≠ .expired := by
    rw [hstate]
    decide
  unfold expireIfDue
  rw [if_neg hopen, if_pos (.inr hunexpired)]

/-! ## Creation -/

section Creation

theorem eligibleWeight_nodup {multisig : Address} {unique approvers : List Address}
    {weight eligible : ℤ} (hunique : unique.Nodup)
    (h : eligibleWeight H s multisig unique weight approvers = .ok eligible) :
    (unique ++ approvers).Nodup := by
  induction approvers generalizing unique weight with
  | nil => simpa using hunique
  | cons approver rest ih =>
      simp only [eligibleWeight, bind_eq_ok, require_eq_ok] at h
      obtain ⟨_, hnew, _, _, _, _, _, _, _, _, hrest⟩ := h
      have hmore : (unique ++ [approver]).Nodup := by
        rw [List.nodup_append_comm]
        exact List.nodup_cons.2 ⟨hnew, hunique⟩
      have hall := ih hmore hrest
      rwa [List.append_assoc, List.singleton_append] at hall

/-- The prerequisites that are recorded are distinct and were on record. -/
theorem collectDependencies_ok {deps dependencies collected : List ℕ} (hnodup : deps.Nodup)
    (hdeps : ∀ dep ∈ deps, dep < id ∧ s.proposal dep ≠ none)
    (h : collectDependencies s id deps dependencies = .ok collected) :
    collected.Nodup ∧ ∀ dep ∈ collected, dep < id ∧ s.proposal dep ≠ none := by
  induction dependencies generalizing deps with
  | nil =>
      cases h
      exact ⟨hnodup, hdeps⟩
  | cons dep rest ih =>
      simp only [collectDependencies, bind_eq_ok, require_eq_ok] at h
      obtain ⟨_, hbackwards, _, hrecorded, hrest⟩ := h
      by_cases hmem : dep ∈ deps
      · rw [if_pos hmem] at hrest
        exact ih hnodup hdeps hrest
      · rw [if_neg hmem] at hrest
        refine ih ?_ ?_ hrest
        · rw [List.nodup_append_comm]
          exact List.nodup_cons.2 ⟨hmem, hnodup⟩
        · intro dep' hdep'
          rcases List.mem_append.1 hdep' with hdep' | hdep'
          · exact hdeps dep' hdep'
          · obtain rfl := List.mem_singleton.1 hdep'
            exact ⟨not_le.1 hbackwards, hrecorded⟩

/-- `create` takes the deposit and records the proposal under the next number. -/
theorem create_ok {proposer : Address} {org wallet policy : String} {approvers : List Address}
    {dependencies : List ℕ} {threshold : ℕ} {deposit : List AssetAmount}
    {expiresAt gracePeriod : UInt64}
    (h : create H env s proposer org wallet policy approvers dependencies threshold deposit
      expiresAt gracePeriod = .ok (id, s')) :
    ∃ p w, proposer ∈ env.auths ∧ Creation s id p ∧ p.holding = ⟨proposer, deposit.head?⟩ ∧
      H.carry s.world ((Holding.mk proposer deposit.head?).taken H.self) = .ok w ∧
      s' = { { s with world := w }.store id p with proposalCount := some id } := by
  simp only [create, State.loadMultisig, bind_eq_ok, requireAuth_eq_ok, okOr_eq_ok, require_eq_ok,
    pure_eq_ok, Prod.mk.injEq] at h
  obtain ⟨_, hauth, _, _, _, hcount, multisig, hmultisig, _, heligible, _, _, _, _, _, hthreshold,
    s₁, htake, _, _, _, _, count, hnext, deps, hdeps, rfl, rfl⟩ := h
  obtain ⟨w, rfl, hcarry⟩ := takeDeposit_ok htake
  obtain ⟨hnodup, hbackwards⟩ := collectDependencies_ok List.nodup_nil (by simp) hdeps
  have hdistinct := eligibleWeight_nodup List.nodup_nil heligible
  refine ⟨_, w, hauth, ?_, rfl, hcarry, rfl⟩
  exact ⟨⟨count, hnext, rfl⟩, by simp [hmultisig], hdistinct, hcount.2,
    Nat.pos_of_ne_zero hthreshold.1, rfl, hnodup, hbackwards⟩

end Creation

/-! ## Votes -/

/-- **What a counted vote makes of the record.** -/
theorem afterVote_cases {crossed : Bool} (h : afterVote H env p crossed = .ok p') :
    (p.state = .pending ∧ p.threshold ≤ p.approvals ∧
      p' = { p with state := .approved, approvedAt := env.timestamp }) ∨
    (p.state = .approved ∧ crossed = true ∧ p' = { p with approvedAt := env.timestamp }) ∨
    (¬ (p.state = .pending ∧ p.threshold ≤ p.approvals) ∧ ¬ (p.state = .approved ∧ crossed = true) ∧
      p' = p) := by
  unfold afterVote at h
  split at h
  · rename_i hreached
    simp only [bind_eq_ok, pure_eq_ok] at h
    obtain ⟨_, _, rfl⟩ := h
    exact .inl ⟨hreached.1, hreached.2, rfl⟩
  · rename_i hshort
    split at h
    · rename_i hcrossed
      cases h
      exact .inr (.inl ⟨hcrossed.1, hcrossed.2, rfl⟩)
    · rename_i hkept
      cases h
      exact .inr (.inr ⟨hshort, hkept, rfl⟩)

theorem approve_ok {n : ℕ} (h : approve H env s caller id = .ok (n, s')) :
    ∃ p, s.proposal id = some p ∧ (Expires H env s id p s' ∨
      ∃ p' multisig threshold previous approvals weight,
        Vote H env s caller id p p' multisig threshold previous approvals weight ∧
        s' = (s.storeApproval id caller).store id p') := by
  simp only [approve, State.load, bind_eq_ok, okOr_eq_ok] at h
  obtain ⟨_, _, p, hp, ⟨expired, p₁, s₁⟩, hexpire, h⟩ := h
  refine ⟨p, hp, ?_⟩
  cases expired with
  | true =>
      simp only [if_true, pure_eq_ok, Prod.mk.injEq] at h
      obtain ⟨_, rfl⟩ := h
      exact .inl ⟨p₁, hexpire⟩
  | false =>
      obtain ⟨rfl, rfl⟩ := expireIfDue_false hexpire
      simp only [Bool.false_eq_true, if_false, State.loadMultisig, bind_eq_ok, okOr_eq_ok,
        require_eq_ok, orFail_eq_ok, pure_eq_ok, Prod.mk.injEq] at h
      obtain ⟨_, hlive, _, heligible, multisig, hmultisig, signer, hsigner, _, hsigns, _, hnew,
        threshold, hthreshold, previous, hprevious, _, hunsettled, ⟨approvals, weight⟩, htally, p₂,
        hrecorded, _, rfl⟩ := h
      subst hsigns
      exact .inr ⟨p₂, multisig, threshold, previous, approvals, weight, ⟨hlive, heligible, hmultisig,
        hsigner, hnew, hthreshold, hprevious, hunsettled, htally, hrecorded⟩, rfl⟩

/-! ## The ways a proposal ends -/

theorem reject_ok (h : reject H env s caller id = .ok s') : ∃ p, s.proposal id = some p ∧
    (Expires H env s id p s' ∨
      p.state = .pending ∧ Ends H s id { p with state := .rejected } s') := by
  simp only [reject, State.load, bind_eq_ok, okOr_eq_ok] at h
  obtain ⟨_, _, p, hp, ⟨expired, p₁, s₁⟩, hexpire, h⟩ := h
  refine ⟨p, hp, ?_⟩
  cases expired with
  | true =>
      cases h
      exact .inl ⟨p₁, hexpire⟩
  | false =>
      obtain ⟨rfl, rfl⟩ := expireIfDue_false hexpire
      simp only [Bool.false_eq_true, if_false, bind_eq_ok, require_eq_ok, pure_eq_ok] at h
      obtain ⟨_, hpending, _, _, _, _, s₂, hreturn, rfl⟩ := h
      exact .inr ⟨hpending, ends_of_returnDeposit rfl hreturn⟩

theorem cancel_ok (h : cancel H env s caller id = .ok s') : ∃ p, s.proposal id = some p ∧
    (Expires H env s id p s' ∨
      p.state.isLive = true ∧ Ends H s id { p with state := .cancelled } s') := by
  simp only [cancel, State.load, bind_eq_ok, okOr_eq_ok] at h
  obtain ⟨_, _, p, hp, ⟨expired, p₁, s₁⟩, hexpire, h⟩ := h
  refine ⟨p, hp, ?_⟩
  cases expired with
  | true =>
      cases h
      exact .inl ⟨p₁, hexpire⟩
  | false =>
      obtain ⟨rfl, rfl⟩ := expireIfDue_false hexpire
      simp only [Bool.false_eq_true, if_false, bind_eq_ok, require_eq_ok, pure_eq_ok] at h
      obtain ⟨_, _, _, hmay, _, _, s₂, hreturn, rfl⟩ := h
      have hlive := ProposalState.isLive_of_mayTransition_cancelled hmay
      exact .inr ⟨hlive, ends_of_returnDeposit rfl hreturn⟩

/-- `execute` leaves an expired proposal alone; any other it executes. -/
theorem execute_ok (h : execute H env s caller id = .ok s') : ∃ p, s.proposal id = some p ∧
    ((p.state = .expired ∧ s' = s) ∨ ∃ multisig threshold approvals weight,
      Execution H env s id p multisig threshold approvals weight ∧
      Ends H s id { p with approvals := approvals, approvalWeight := weight, state := .executed }
        s') := by
  simp only [execute, State.load, bind_eq_ok, okOr_eq_ok, require_eq_ok] at h
  obtain ⟨_, _, p, hp, _, hunexpired, ⟨expired, p₁, s₁⟩, hexpire, h⟩ := h
  refine ⟨p, hp, ?_⟩
  rcases expireIfDue_cases hexpire with ⟨rfl, rfl, rfl, _⟩ | ⟨rfl, hstate, rfl, rfl⟩ | ⟨_, _, hdue, _⟩
  · simp only [Bool.false_eq_true, if_false, State.loadMultisig, ensureVoteValid,
      VoteBars.ensureMet, requireTimelockElapsed, bind_eq_ok, okOr_eq_ok, require_eq_ok,
      orFail_eq_ok, pure_eq_ok] at h
    obtain ⟨_, _, _, happroved, ⟨n, weight⟩, htally, _, hbars, multisig, hmultisig, threshold,
      hthreshold, _, henough, _, hreleased, _, hmet, _, _, s₂, hreturn, rfl⟩ := h
    exact .inr ⟨multisig, threshold, n, weight, ⟨happroved, hunexpired, htally, hbars,
      hmultisig, hthreshold, not_lt.1 henough, hreleased, hmet⟩, ends_of_returnDeposit rfl hreturn⟩
  · cases h
    exact .inl ⟨hstate, rfl⟩
  · exact absurd hdue hunexpired

/-- `fail` ends an approved proposal and returns nothing. -/
theorem fail_ok (h : fail H env s caller id = .ok s') : ∃ p, s.proposal id = some p ∧
    (Expires H env s id p s' ∨
      p.state = .approved ∧ ¬ p.IsExpired env ∧ s' = s.store id { p with state := .failed }) := by
  simp only [fail, State.load, bind_eq_ok, okOr_eq_ok] at h
  obtain ⟨_, _, p, hp, ⟨expired, p₁, s₁⟩, hexpire, h⟩ := h
  refine ⟨p, hp, ?_⟩
  rcases expireIfDue_cases hexpire with ⟨rfl, rfl, rfl, hnot⟩ | ⟨rfl, _⟩ | ⟨rfl, _⟩
  · simp only [Bool.false_eq_true, if_false, bind_eq_ok, require_eq_ok, pure_eq_ok] at h
    obtain ⟨_, _, _, happroved, _, _, rfl⟩ := h
    have hunexpired : ¬ p₁.IsExpired env := by
      refine hnot.resolve_left ?_
      rw [happroved]
      exact Bool.noConfusion
    exact .inr ⟨happroved, hunexpired, rfl⟩
  · cases h
    exact .inl ⟨p₁, hexpire⟩
  · cases h
    exact .inl ⟨p₁, hexpire⟩

theorem close_ok (h : close H env s caller id = .ok s') : ∃ p, s.proposal id = some p ∧
    (Expires H env s id p s' ∨
      p.state = .executed ∧ s' = s.store id { p with state := .closed }) := by
  simp only [close, State.load, bind_eq_ok, okOr_eq_ok] at h
  obtain ⟨_, _, p, hp, ⟨expired, p₁, s₁⟩, hexpire, h⟩ := h
  refine ⟨p, hp, ?_⟩
  cases expired with
  | true =>
      cases h
      exact .inl ⟨p₁, hexpire⟩
  | false =>
      obtain ⟨rfl, rfl⟩ := expireIfDue_false hexpire
      simp only [Bool.false_eq_true, if_false, bind_eq_ok, require_eq_ok, pure_eq_ok] at h
      obtain ⟨_, _, _, hexecuted, _, _, rfl⟩ := h
      exact .inr ⟨hexecuted, rfl⟩

/-- `prune_expired` purges a stale record once its deposit is settled. -/
theorem pruneExpired_ok (h : pruneExpired H env s id = .ok s') :
    ∃ p expired p' s₁, s.proposal id = some p ∧
      expireIfDue H env s id p = .ok (expired, p', s₁) ∧ p'.IsExpired env ∧
      p'.state.depositSettled = true ∧ s' = s₁.purgeProposal id p' := by
  simp only [pruneExpired, State.load, bind_eq_ok, okOr_eq_ok, require_eq_ok, pure_eq_ok] at h
  obtain ⟨p, hp, ⟨expired, p', s₁⟩, hexpire, _, hdue, _, hsettled, rfl⟩ := h
  exact ⟨p, expired, p', s₁, hp, hexpire, hdue, hsettled, rfl⟩

/-! ## Views -/

/-- `expire` leaves the state that settling its proposal leaves. -/
theorem expire_ok (h : expire H env s id = .ok s') : ∃ p₀ p₁ expired, s.proposal id = some p₀ ∧
    expireIfDue H env s id p₀ = .ok (expired, p₁, s') := by
  simp only [expire, State.load, bind_eq_ok, okOr_eq_ok, pure_eq_ok] at h
  obtain ⟨p₀, hp, ⟨expired, p₁, s₁⟩, hexpire, _, _, rfl⟩ := h
  exact ⟨p₀, p₁, expired, hp, hexpire⟩

/-- So does a view. -/
theorem get_ok (h : get H env s id = .ok (p, s')) : ∃ p₀ p₁ expired, s.proposal id = some p₀ ∧
    expireIfDue H env s id p₀ = .ok (expired, p₁, s') := by
  simp only [get, State.load, bind_eq_ok, okOr_eq_ok, pure_eq_ok, Prod.mk.injEq] at h
  obtain ⟨p₀, hp, ⟨expired, p₁, s₁⟩, hexpire, _, _, _, rfl⟩ := h
  exact ⟨p₀, p₁, expired, hp, hexpire⟩

theorem settledView_ok {α : Type} {answer : State World → Proposal → α} {a : α}
    (h : settledView H env s id answer = .ok (a, s')) :
    ∃ p₀ p₁ expired, s.proposal id = some p₀ ∧
      expireIfDue H env s id p₀ = .ok (expired, p₁, s') := by
  simp only [settledView, State.load, bind_eq_ok, okOr_eq_ok, pure_eq_ok, Prod.mk.injEq] at h
  obtain ⟨p₀, hp, ⟨expired, p₁, s₁⟩, hexpire, _, rfl⟩ := h
  exact ⟨p₀, p₁, expired, hp, hexpire⟩

theorem canExecute_ok {answer : Bool} (h : canExecute H env s id = .ok (answer, s')) :
    ∃ p₀ p₁ expired, s.proposal id = some p₀ ∧
      expireIfDue H env s id p₀ = .ok (expired, p₁, s') := by
  simp only [canExecute, State.load, bind_eq_ok, okOr_eq_ok] at h
  obtain ⟨p₀, hp, ⟨expired, p₁, s₁⟩, hexpire, h⟩ := h
  have hsame : s' = s₁ := by
    split at h
    · obtain ⟨_, _, h⟩ := bind_eq_ok.1 h
      dsimp only at h
      split at h
      · simp only [bind_eq_ok] at h
        obtain ⟨_, _, _, _, h⟩ := h
        split at h <;> cases h <;> rfl
      · cases h
        rfl
    · cases h
      rfl
  exact ⟨p₀, p₁, expired, hp, hsame ▸ hexpire⟩

end ProposalContract
end Astroid
