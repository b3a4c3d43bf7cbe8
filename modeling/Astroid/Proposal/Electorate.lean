import Astroid.Multisig.Invariant
import Astroid.Proposal.Changes

/-!
# The electorate of a proposal

What the multisig says of itself is an electorate: who signs, with which weight, and the
weight that suffices.  A vote on record counts while its voter signs.  The tally a proposal
takes is the number and the weight of the votes that count (`liveApprovalTally_ok`), and it
does not fail where the weights of distinct signers fit in a `u32`
(`liveApprovalTally_returns`), as the weights of a multisig always do
(`Electorate.fits_of_reachable`).
-/

namespace Astroid
namespace ProposalContract

open Outcome Quorum

/-- What a multisig answers: the weight that suffices, who signs and with which weight. -/
structure Electorate where
  threshold : ℕ
  signer : Address → Bool
  weight : Address → ℕ

namespace Electorate

/-- The weights of any distinct signers add up in a `u32`. -/
def Fits (E : Electorate) : Prop :=
  ∀ l : List Address, l.Nodup → (∀ who ∈ l, E.signer who = true) → total E.weight l < 2 ^ 32

/-- The multisig at `multisig` answers as the electorate. -/
structure Answers {World : Type} (E : Electorate) (H : ProposalHost World) (w : World)
    (multisig : Address) : Prop where
  threshold : H.getThreshold w multisig = some E.threshold
  signer : ∀ who, H.isSigner w multisig who = some (E.signer who)
  weight : ∀ who, E.signer who = true → H.getSignerWeight w multisig who = some (E.weight who)

/-! ## The electorate of a signer set -/

section SignerSets

open MultisigContract (SignerWeight WellFormed IsSignerIn weightIn weightOf weights weightOf_append)

variable {signers : List SignerWeight} {threshold : ℕ}

/-- `is_signer`, `get_signer_weight` and `get_threshold` of a multisig with these signers. -/
def ofSigners (signers : List SignerWeight) (threshold : ℕ) : Electorate where
  threshold := threshold
  signer who := decide (IsSignerIn signers who)
  weight who :=
    match weightIn signers who with
    | .ok weight => weight
    | .error _ => 0

theorem weightIn_of_mem {who : Address} (h : IsSignerIn signers who) :
    weightIn signers who = .ok ((ofSigners signers threshold).weight who) := by
  unfold ofSigners
  dsimp only
  cases hfind : signers.find? (·.address = who) with
  | none =>
      obtain ⟨signer, hmem, rfl⟩ := List.mem_map.1 h
      rw [List.find?_eq_none] at hfind
      exact absurd (hfind signer hmem) (by simp)
  | some signer => simp [weightIn, okOr, orFail, hfind]

/-- Distinct signers have at most the weight of them all. -/
theorem total_ofSigners (h : WellFormed signers threshold) {l : List Address} (hnodup : l.Nodup)
    (hsigns : ∀ who ∈ l, IsSignerIn signers who) :
    total (ofSigners signers threshold).weight l = weightOf signers l := by
  induction l using List.reverseRecOn with
  | nil => simp [weightOf, support]
  | append_singleton rest who ih =>
      rw [List.nodup_append_comm, List.singleton_append, List.nodup_cons] at hnodup
      have hwho : IsSignerIn signers who := hsigns who (by simp)
      have hrest : ∀ who ∈ rest, IsSignerIn signers who := by
        intro who hmem
        exact hsigns who (List.mem_append_left _ hmem)
      have hweight : weightIn signers who = .ok ((ofSigners signers threshold).weight who) :=
        weightIn_of_mem hwho
      rw [total_append, ih hnodup.2 hrest, weightOf_append h.distinct hweight hnodup.1]
      simp

theorem fits_of_wellFormed (h : WellFormed signers threshold) :
    (ofSigners signers threshold).Fits := by
  intro l hnodup hsigns
  have htotal := total_ofSigners h hnodup fun who hmem => of_decide_eq_true (hsigns who hmem)
  have hle : weightOf signers l ≤ weights signers := support_le_total
  have hfits := h.fits
  omega

/-- **The electorate of every multisig fits**, whatever was done to its signer set. -/
theorem fits_of_reachable {World : Type} {H : MultisigContract.MultisigHost World}
    {s : MultisigContract.State World} (h : MultisigContract.Reachable H s)
    (hsigners : s.signers = some signers) (hthreshold : s.threshold = some threshold) :
    (ofSigners signers threshold).Fits := by
  rcases MultisigContract.governed_reachable h with hblank | ⟨signers', threshold', hgoverned⟩
  · rw [hblank.threshold] at hthreshold
    cases hthreshold
  · rw [hgoverned.signers_eq, Option.some.injEq] at hsigners
    rw [hgoverned.threshold_eq, Option.some.injEq] at hthreshold
    subst hsigners hthreshold
    exact fits_of_wellFormed hgoverned.wellFormed

end SignerSets

/-! ## Votes that count -/

variable {World : Type} (E : Electorate) (s : State World) (id : ℕ) (p : Proposal)

/-- The votes on record of current signers. -/
def voted (who : Address) : Bool := s.approval id who && E.signer who

/-- How many votes of the allow-list count. -/
def count : ℕ := turnout (fun who => who) (E.voted s id) p.approvers

/-- The weight behind them. -/
def weightFor : ℕ := support (fun who => who) E.weight (E.voted s id) p.approvers

variable {E s id p}

/-- The votes that count depend on the votes on record and the allow-list alone. -/
theorem count_congr {s' : State World} {p' : Proposal} (hvotes : s'.approval id = s.approval id)
    (hlist : p'.approvers = p.approvers) :
    E.count s' id p' = E.count s id p ∧ E.weightFor s' id p' = E.weightFor s id p := by
  unfold count weightFor voted
  simp only [hvotes, hlist, and_self]

/-- Distinct voters have a weight that fits. -/
theorem Fits.weightFor (h : E.Fits) (hdistinct : p.approvers.Nodup) :
    E.weightFor s id p < 2 ^ 32 := by
  refine h _ (hdistinct.filter _) ?_
  intro who hwho
  have hvoted := (List.mem_filter.1 hwho).2
  simp only [voted, Bool.and_eq_true] at hvoted
  exact hvoted.2

end Electorate

variable {World : Type} {H : ProposalHost World} {E : Electorate} {s s' : State World} {id : ℕ}
  {p : Proposal} {multisig caller : Address}

/-- The multisig of the contract answers as the electorate. -/
def State.Reports (H : ProposalHost World) (E : Electorate) (s : State World) : Prop :=
  ∀ multisig, s.multisig = some multisig → E.Answers H s.world multisig

/-! ## The tally -/

/-- The loop of `live_approval_tally` over the approvers that remain. -/
theorem tallyApprovals_ok {approvals n : ℕ} {weight w : ℤ} {l : List Address}
    (hE : E.Answers H s.world multisig) (hfew : approvals + l.length < 2 ^ 32)
    (h : tallyApprovals H s multisig id approvals weight l = .ok (n, w)) :
    n = approvals + turnout (fun who => who) (E.voted s id) l ∧
      w = weight + support (fun who => who) E.weight (E.voted s id) l := by
  induction l generalizing approvals weight with
  | nil =>
      cases h
      simp [turnout]
  | cons who rest ih =>
      rw [List.length_cons] at hfew
      rw [turnout_cons, support_cons]
      unfold tallyApprovals at h
      by_cases hvote : s.approval id who = true
      · simp only [hvote, if_true, bind_eq_ok, orFail_eq_ok, hE.signer, Option.some.injEq] at h
        obtain ⟨_, rfl, h⟩ := h
        by_cases hsigner : E.signer who = true
        · have hvoted : E.voted s id who = true := by simp [Electorate.voted, hvote, hsigner]
          simp only [hsigner, if_true, bind_eq_ok, orFail_eq_ok, checkedAdd_eq_ok,
            hE.weight who hsigner, Option.some.injEq] at h
          obtain ⟨_, _, _, rfl, _, ⟨_, rfl⟩, h⟩ := h
          rw [Nat.mod_eq_of_lt (by omega)] at h
          obtain ⟨hn, hw⟩ := ih (by omega) h
          rw [if_pos hvoted, if_pos hvoted]
          push_cast
          exact ⟨by omega, by omega⟩
        · have hvoted : ¬ E.voted s id who = true := by simp [Electorate.voted, hsigner]
          rw [if_neg hsigner] at h
          rw [if_neg hvoted, if_neg hvoted, Nat.zero_add, Nat.zero_add]
          exact ih (by omega) h
      · have hvoted : ¬ E.voted s id who = true := by simp [Electorate.voted, hvote]
        rw [if_neg hvote] at h
        rw [if_neg hvoted, if_neg hvoted, Nat.zero_add, Nat.zero_add]
        exact ih (by omega) h

/-- It does not fail while the sums fit. -/
theorem tallyApprovals_returns {approvals : ℕ} {weight : ℤ} {l : List Address}
    (hE : E.Answers H s.world multisig) (hfew : approvals + l.length < 2 ^ 32) (h0 : 0 ≤ weight)
    (hfits : weight + support (fun who => who) E.weight (E.voted s id) l < 2 ^ 32) :
    ∃ r, tallyApprovals H s multisig id approvals weight l = .ok r := by
  induction l generalizing approvals weight with
  | nil => exact ⟨_, rfl⟩
  | cons who rest ih =>
      rw [List.length_cons] at hfew
      rw [support_cons] at hfits
      unfold tallyApprovals
      cases hvote : s.approval id who with
      | false =>
          simp only [Electorate.voted, hvote, Bool.false_and, Bool.false_eq_true, if_false,
            zero_add] at hfits
          exact ih (by omega) h0 hfits
      | true =>
          simp only [if_true, hE.signer, orFail, ok_bind]
          cases hsigner : E.signer who with
          | false =>
              simp only [Electorate.voted, hsigner, Bool.and_false, Bool.false_eq_true, if_false,
                zero_add] at hfits
              exact ih (by omega) h0 hfits
          | true =>
              simp only [Electorate.voted, hvote, hsigner, Bool.and_self, if_true] at hfits
              push_cast at hfits
              have hone : checkedAdd approvals 1 = .ok (approvals + 1) :=
                checkedAdd_eq_ok.2 ⟨by unfold IsI128 i128Min i128Max; omega, rfl⟩
              have hadd : checkedAdd weight (E.weight who) = .ok (weight + E.weight who) :=
                checkedAdd_eq_ok.2 ⟨by unfold IsI128 i128Min i128Max; omega, rfl⟩
              simp only [if_true, hone, hE.weight who hsigner, hadd, ok_bind]
              rw [Nat.mod_eq_of_lt (by omega)]
              exact ih (by omega) (by omega) (by omega)

/-- **What a tally says.** -/
theorem liveApprovalTally_ok {n w : ℕ} (hE : s.Reports H E)
    (hfew : p.approvers.length ≤ maxApprovers) (h : liveApprovalTally H s id p = .ok (n, w)) :
    n = E.count s id p ∧ w = E.weightFor s id p := by
  simp only [liveApprovalTally, State.loadMultisig, tryFromU32, bind_eq_ok, okOr_eq_ok,
    require_eq_ok, pure_eq_ok, Prod.mk.injEq] at h
  obtain ⟨multisig, hmultisig, ⟨n', w'⟩, htally, _, ⟨_, _, rfl⟩, rfl, rfl⟩ := h
  unfold maxApprovers at hfew
  obtain ⟨hn, hw⟩ := tallyApprovals_ok (hE multisig hmultisig) (by omega) htally
  refine ⟨by rw [hn, Nat.zero_add, Electorate.count], ?_⟩
  rw [hw, zero_add]
  exact Int.toNat_natCast _

/-- **Where the weights fit, it says it.** -/
theorem liveApprovalTally_returns (hE : s.Reports H E) (hmultisig : s.multisig = some multisig)
    (hfew : p.approvers.length ≤ maxApprovers) (hfits : E.weightFor s id p < 2 ^ 32) :
    liveApprovalTally H s id p = .ok (E.count s id p, E.weightFor s id p) := by
  have hshort : 0 + p.approvers.length < 2 ^ 32 := by
    unfold maxApprovers at hfew
    omega
  have hsum : (0 : ℤ) + support (fun who => who) E.weight (E.voted s id) p.approvers < 2 ^ 32 := by
    rw [zero_add]
    exact_mod_cast hfits
  obtain ⟨⟨n, w⟩, htally⟩ :=
    tallyApprovals_returns (hE multisig hmultisig) hshort le_rfl hsum
  obtain ⟨_, hw⟩ := tallyApprovals_ok (hE multisig hmultisig) hshort htally
  have hreturns : liveApprovalTally H s id p = .ok (n, w.toNat) := by
    simp only [liveApprovalTally, State.loadMultisig, tryFromU32, bind_eq_ok, okOr_eq_ok,
      require_eq_ok, pure_eq_ok, Prod.mk.injEq]
    exact ⟨multisig, hmultisig, (n, w), htally, _, ⟨(), ⟨by omega, by omega⟩, rfl⟩, rfl, rfl⟩
  obtain ⟨rfl, hweight⟩ := liveApprovalTally_ok hE hfew hreturns
  rw [hreturns, hweight]

/-! ## One more vote -/

section Votes

theorem voted_storeApproval (hsigner : E.signer caller = true) :
    E.voted (s.storeApproval id caller) id
      = fun who => E.voted s id who || decide (who = caller) := by
  funext who
  unfold Electorate.voted State.storeApproval
  by_cases hwho : who = caller
  · subst hwho
    simp [hsigner]
  · simp [hwho]

/-- **A new vote counts once**, with the weight of its voter. -/
theorem count_storeApproval (hdistinct : p.approvers.Nodup) (heligible : caller ∈ p.approvers)
    (hsigner : E.signer caller = true) (hnew : s.approval id caller = false) :
    E.count (s.storeApproval id caller) id p = E.count s id p + 1 ∧
      E.weightFor (s.storeApproval id caller) id p = E.weightFor s id p + E.weight caller := by
  have hnodup : (p.approvers.map fun who => who).Nodup := by
    rw [List.map_id']
    exact hdistinct
  have hunvoted : E.voted s id caller = false := by
    rw [Electorate.voted, hnew, Bool.false_and]
  unfold Electorate.count Electorate.weightFor
  rw [voted_storeApproval hsigner]
  exact ⟨turnout_insert hnodup heligible hunvoted, support_insert hnodup heligible hunvoted⟩

end Votes

/-! ## Well-formed records -/

/-- A record lists distinct approvers, few of them, and some of them have to approve. -/
structure Proposal.WellFormed (p : Proposal) : Prop where
  distinct : p.approvers.Nodup
  few : p.approvers.length ≤ maxApprovers
  threshold : 0 < p.threshold

/-- Every record is well formed, and there is a multisig to ask about it. -/
def State.WellFormed (s : State World) : Prop :=
  ∀ id p, s.proposal id = some p → s.multisig ≠ none ∧ p.WellFormed

theorem State.WellFormed.call {env : Env H.self} {call : Call} (hs : s.WellFormed)
    (h : exec H env s call = .ok s') : s'.WellFormed := by
  intro id p' hp'
  rcases exec_changes h with ⟨_, _, _, hinit⟩ | hchanges
  · rw [hinit.post] at hp' ⊢
    exact ⟨Option.some_ne_none _, (hs id p' hp').2⟩
  · have hchange := hchanges.change id
    rw [hp'] at hchange
    rw [hchanges.multisig]
    rcases hchange.terms with ⟨_, hcreation⟩ | ⟨p, hp, hterms⟩
    · exact ⟨hcreation.multisig, hcreation.distinct, hcreation.few, hcreation.threshold⟩
    · obtain ⟨hmultisig, hp⟩ := hs id p hp
      refine ⟨hmultisig, ?_, ?_, ?_⟩
      · rw [hterms.approvers]
        exact hp.distinct
      · rw [hterms.approvers]
        exact hp.few
      · rw [hterms.threshold]
        exact hp.threshold

theorem wellFormed_of_reachable (h : Reachable H s) : s.WellFormed := by
  refine h.invariant ?_ ?_
  · intro s hfresh id p hp
    rw [hfresh.proposal id] at hp
    cases hp
  · intro i s s' hs hstep
    cases i with
    | invoke env call => exact hs.call hstep
    | outside time w =>
        obtain ⟨_, rfl⟩ := hstep
        exact hs

/-! ## A deployment with an electorate -/

/-- The proposal contract over the reference ledger, with a multisig that answers as the
electorate. -/
def electedHost (E : Electorate) : ProposalHost Ledger where
  toTokenHost := ledgerHost (.contract 0)
  getThreshold _ _ := some E.threshold
  isSigner _ _ who := some (E.signer who)
  getSignerWeight _ _ who := some (E.weight who)

theorem electedHost_reports {s : State Ledger} : s.Reports (electedHost E) E :=
  fun _ _ => ⟨rfl, fun _ => rfl, fun _ _ => rfl⟩

theorem deployed_elected : Fresh (electedHost E) deployed :=
  ⟨rfl, rfl, rfl, fun _ => rfl, fun _ _ => rfl, deployed_fresh.custody⟩

/-- Accounts 1, 2 and 3 sign, the third with weight 2; a weight of 2 suffices. -/
def weighted : Electorate :=
  .ofSigners [⟨.account 1, 1⟩, ⟨.account 2, 1⟩, ⟨.account 3, 2⟩] 2

theorem weighted_fits : weighted.Fits :=
  Electorate.fits_of_wellFormed ⟨by decide, by decide, by decide, by decide, by decide, by decide⟩

/-- Account 1 proposes without a deposit and needs one approval of three; the delay is 10
seconds. -/
def weightedOpening : Script Call :=
  [(signedBy 1 [], .initializeContract 10 (.contract 5)),
    (signedBy 2 [1], .create (.account 1) "org" "wallet" "policy"
      [.account 1, .account 2, .account 3] [] 1 [] 1000 0)]

end ProposalContract
end Astroid
