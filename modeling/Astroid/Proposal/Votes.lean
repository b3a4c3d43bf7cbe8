import Astroid.Proposal.Electorate

/-!
# Votes on an approved proposal

A proposal is approved by its own threshold and takes more votes after that, but only until
the weight of the multisig is reached: from there its state gate refuses every vote, whether
or not the tally misses another bar (`under_voted_approvals`).  One heavy vote can so leave a
proposal short of the majority that no further vote can bring
(`not_under_voted_approvals`).
-/

namespace Astroid
namespace ProposalContract

open Outcome

variable {World : Type} {H : ProposalHost World} {E : Electorate} {env : Env H.self}
  {s s' : State World} {id : ℕ} {p p' : Proposal} {who : Address}

/-- The votes that count meet every bar that executing demands. -/
def Electorate.MeetsBars (E : Electorate) (s : State World) (id : ℕ) (p : Proposal) : Prop :=
  (VoteBars.forProposal p).metBy (E.count s id p) = true ∧ E.threshold ≤ E.weightFor s id p

/-- `who` may still vote on the proposal on record. -/
structure MayVote {current : Address} (E : Electorate) (env : Env current) (s : State World)
    (id : ℕ) (p : Proposal) (who : Address) : Prop where
  record : s.proposal id = some p
  approved : p.state = .approved
  unexpired : ¬ p.IsExpired env
  eligible : who ∈ p.approvers
  signer : E.signer who = true
  new : s.approval id who = false
  auth : who ∈ env.auths

/-- A vote on an approved proposal leaves it approved, with the new tally. -/
theorem afterVote_of_approved (H : ProposalHost World) (env : Env H.self) (p : Proposal)
    (crossed : Bool) (hstate : p.state = .approved) :
    ∃ p', afterVote H env p crossed = .ok p' ∧ p'.approvals = p.approvals ∧
      p'.approvalWeight = p.approvalWeight ∧ p'.state = .approved := by
  have hpending : ¬ (p.state = .pending ∧ p.threshold ≤ p.approvals) := by
    rintro ⟨hpending, _⟩
    rw [hstate] at hpending
    cases hpending
  unfold afterVote
  rw [if_neg hpending]
  split
  · exact ⟨_, rfl, rfl, rfl, hstate⟩
  · exact ⟨_, rfl, rfl, rfl, hstate⟩

/-- **Votes on an approved proposal.**  While its weight is below that of the multisig, a vote
succeeds and counts; from there on every vote is refused, whichever other bar is missed. -/
theorem under_voted_approvals (hreach : Reachable H s) (hE : s.Reports H E) (hfits : E.Fits)
    (hmay : MayVote E env s id p who) :
    (E.weightFor s id p < E.threshold → ∃ s' p',
      approve H env s who id = .ok (E.count s id p + 1, s') ∧ s'.approval id who = true ∧
      s'.proposal id = some p' ∧ p'.state = .approved ∧ p'.approvals = E.count s id p + 1 ∧
      p'.approvalWeight = E.weightFor s id p + E.weight who) ∧
    (E.threshold ≤ E.weightFor s id p →
      approve H env s who id = .error (.error .invalidProposalState)) := by
  obtain ⟨hconfigured, hwf⟩ := wellFormed_of_reachable hreach id p hmay.record
  obtain ⟨multisig, hmultisig⟩ := Option.ne_none_iff_exists'.1 hconfigured
  have hanswers := hE multisig hmultisig
  have hstate := hmay.approved
  have hlive : p.state.isLive = true := by
    rw [hstate]
    rfl
  have hload : s.load id = .ok p := by simp [State.load, hmay.record]
  have hconfig : s.loadMultisig = .ok multisig := by simp [State.loadMultisig, hmultisig]
  have hprevious : previousWeight H s id p = .ok (E.weightFor s id p) := by
    rw [previousWeight, if_pos hstate,
      liveApprovalTally_returns hE hmultisig hwf.few (hfits.weightFor hwf.distinct)]
    rfl
  have hauth : requireAuth env who = .ok () := requireAuth_eq_ok.2 hmay.auth
  unfold approve
  rw [hauth, ok_bind, hload, ok_bind,
    expireIfDue_of_approved hstate hmay.unexpired, ok_bind]
  dsimp only
  rw [if_neg Bool.false_ne_true, require_pos hlive, ok_bind, require_pos hmay.eligible, ok_bind,
    hconfig, ok_bind, hanswers.signer who, hmay.signer, orFail, ok_bind, require_pos rfl, ok_bind,
    require_pos hmay.new, ok_bind, hanswers.threshold, orFail, ok_bind, hprevious, ok_bind]
  refine ⟨?_, ?_⟩
  · intro hlight
    have hunsettled : ¬ (p.state = .approved ∧ E.threshold ≤ E.weightFor s id p) :=
      fun hsettled => absurd hsettled.2 (not_le.2 hlight)
    have hreports : (s.storeApproval id who).Reports H E := hE
    have hmultisig' : (s.storeApproval id who).multisig = some multisig := hmultisig
    have hfits' : E.weightFor (s.storeApproval id who) id p < 2 ^ 32 := hfits.weightFor hwf.distinct
    have htally := liveApprovalTally_returns hreports hmultisig' hwf.few hfits'
    obtain ⟨hcount, hweight⟩ :=
      count_storeApproval hwf.distinct hmay.eligible hmay.signer hmay.new
    rw [hcount, hweight] at htally
    rw [require_pos hunsettled, ok_bind, htally, ok_bind]
    dsimp only
    obtain ⟨p', hvote, happrovals, happrovalWeight, happroved⟩ := afterVote_of_approved H env
      { p with
        approvals := E.count s id p + 1
        approvalWeight := E.weightFor s id p + E.weight who }
      (decide (E.weightFor s id p < E.threshold ∧
        E.threshold ≤ E.weightFor s id p + E.weight who)) hstate
    rw [hvote, ok_bind, happrovals]
    refine ⟨_, p', rfl, ?_, Function.update_self .., happroved, happrovals, happrovalWeight⟩
    simp [State.store, State.storeApproval]
  · intro hheavy
    rw [require_neg (not_not.2 ⟨hstate, hheavy⟩)]
    rfl

/-! ## A light vote and a heavy one -/

/-- What a first vote of the account `n` on the weighted opening leaves on record. -/
abbrev votedBy (n : ℕ) : State Ledger :=
  (deployment (electedHost weighted)).play deployed
    (weightedOpening ++ [(signedBy 3 [n], .approve (.account n) 1)])

theorem light_recorded : ((votedBy 1).proposal 1).isSome = true := by decide

theorem heavy_recorded : ((votedBy 3).proposal 1).isSome = true := by decide

/-- After a vote of weight 1 the proposal is approved, and another vote counts. -/
theorem under_voted_approvals_light : ∃ s', approve (electedHost weighted) (signedBy 4 [2])
    (votedBy 1) (.account 2) 1 = .ok (2, s') ∧ s'.approval 1 (.account 2) = true := by
  have hreach : Reachable (electedHost weighted) (votedBy 1) :=
    Deployment.reachable_play deployed_elected (by decide)
  have hmay : MayVote weighted (signedBy 4 [2]) (votedBy 1) 1
      (((votedBy 1).proposal 1).get light_recorded) (.account 2) :=
    ⟨(Option.some_get light_recorded).symm, by decide, by decide,
      by decide, by decide, by decide, by decide⟩
  have hcount : weighted.count (votedBy 1) 1 (((votedBy 1).proposal 1).get light_recorded) = 1 := by
    decide
  obtain ⟨s', _, hvote, hvoted, _⟩ := (under_voted_approvals hreach electedHost_reports
    weighted_fits hmay).1 (by decide)
  rw [hcount] at hvote
  exact ⟨s', hvote, hvoted⟩

/-- After a vote of weight 2 the proposal is approved, one vote short of the majority, and
takes no other vote. -/
theorem not_under_voted_approvals :
    ¬ ∀ (env : Env (electedHost weighted).self) (s : State Ledger) (id : ℕ) (p : Proposal)
      (who : Address), Reachable (electedHost weighted) s → MayVote weighted env s id p who →
      ¬ weighted.MeetsBars s id p → ∃ r, approve (electedHost weighted) env s who id = .ok r := by
  intro h
  have hreach : Reachable (electedHost weighted) (votedBy 3) :=
    Deployment.reachable_play deployed_elected (by decide)
  have hmay : MayVote weighted (signedBy 4 [1]) (votedBy 3) 1
      (((votedBy 3).proposal 1).get heavy_recorded) (.account 1) :=
    ⟨(Option.some_get heavy_recorded).symm, by decide, by decide,
      by decide, by decide, by decide, by decide⟩
  have hshort : ¬ weighted.MeetsBars (votedBy 3) 1
      (((votedBy 3).proposal 1).get heavy_recorded) := by
    rintro ⟨hbars, _⟩
    revert hbars
    decide
  obtain ⟨r, hvote⟩ := h _ _ 1 _ (.account 1) hreach hmay hshort
  have hrefused : (approve (electedHost weighted) (signedBy 4 [1]) (votedBy 3) (.account 1) 1).isOk
      = false := by decide
  rw [hvote] at hrefused
  cases hrefused

end ProposalContract
end Astroid
