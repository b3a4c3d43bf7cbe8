import Astroid.Proposal.Electorate
import Astroid.Proposal.Order

/-!
# Proposals before a multisig

A proposal contract asks a multisig contract who signs, with which weight and which weight
suffices.  Here both run side by side, the signer set changing between any two calls as the
multisig lets it.  A vote on record was cast by its voter, as a signer of that moment
(`votes_cast`), and a proposal that executes has the votes of distinct current signers with
the weight the multisig now demands (`executed_by_council`).
-/

namespace Astroid

namespace MultisigContract
namespace State

variable {World : Type} (s : State World)

/-- `is_signer`. -/
def isSigner (who : Address) : Bool :=
  match s.loadSigners with
  | .ok signers => decide (IsSignerIn signers who)
  | .error _ => false

/-- `get_signer_weight`: `weight_of`, or 0. -/
def getSignerWeight (who : Address) : ℕ :=
  match (do weightIn (← s.loadSigners) who : Result ℕ) with
  | .ok weight => weight
  | .error _ => 0

/-- `get_threshold`. -/
def getThreshold : Result ℕ := s.loadThreshold

end State
end MultisigContract

namespace ProposalContract

open Outcome Machine Quorum
open MultisigContract (IsSignerIn SignerWeight Governed weightOf)

variable {World Seat : Type} {H : ProposalHost World} {council : Address}
  {view : World → MultisigContract.State Seat} {M : MultisigContract.MultisigHost Seat}
  {env : Env H.self} {s s' : State World} {call : Call} {id : ℕ} {who : Address}
  {tr tr₁ : List (Entry (State World) (Inputs H))} {t : ℕ} {e q : Entry (State World) (Inputs H)}

/-- At `council` there is a multisig contract, which stores what `view` shows. -/
structure Seats (H : ProposalHost World) (council : Address)
    (view : World → MultisigContract.State Seat) : Prop where
  threshold : ∀ w, H.getThreshold w council = (view w).getThreshold.toOption
  signer : ∀ w who, H.isSigner w council who = some ((view w).isSigner who)
  weight : ∀ w who, H.getSignerWeight w council who = some ((view w).getSignerWeight who)

/-- Every call meets the multisig in a state it can be in. -/
def seated (M : MultisigContract.MultisigHost Seat) (view : World → MultisigContract.State Seat) :
    Inputs H → State World → Prop :=
  fun _ s => MultisigContract.Reachable M (view s.world)

/-- `who` approved the proposal in this entry, as a signer of the multisig `council`. -/
structure Casts (council : Address) (who : Address) (id : ℕ)
    (e : Entry (State World) (Inputs H)) : Prop where
  call : ∃ env : Env H.self, e.input = .invoke env (.approve who id) ∧ who ∈ env.auths
  multisig : e.pre.multisig = some council
  signer : H.isSigner e.pre.world council who = some true

/-! ## Votes on record -/

theorem approve_auth {approvals : ℕ} (h : approve H env s who id = .ok (approvals, s')) :
    who ∈ env.auths := by
  obtain ⟨_, hauth, _⟩ := bind_eq_ok.1 h
  exact requireAuth_eq_ok.1 hauth

/-- A vote on record after a call was on record before, or the call cast it. -/
theorem exec_votes (h : exec H env s call = .ok s') (hvote : s'.approval id who = true) :
    s.approval id who = true ∨ ∃ council, s.multisig = some council ∧ call = .approve who id ∧
      who ∈ env.auths ∧ H.isSigner s.world council who = some true := by
  have hchange := exec_change h id
  generalize hrecord : s'.proposal id = record at hchange
  generalize hvotes : s'.approval id = votes at hchange hvote
  cases hchange with
  | kept | created | expired | executed | closed | ended => exact .inl hvote
  | purged p =>
      dsimp only at hvote
      split at hvote
      · cases hvote
      · exact .inl hvote
  | voted caller p p' multisig threshold previous approvals weight hcall _ hcast =>
      by_cases hwho : who = caller
      · subst hwho hcall
        obtain ⟨_, happrove⟩ := snd_map_ok h
        exact .inr ⟨multisig, hcast.multisig_eq, rfl, approve_auth happrove, hcast.signer⟩
      · rw [Function.update_of_ne hwho] at hvote
        exact .inl hvote

/-! ## One multisig -/

/-- No proposal was numbered. -/
def KeepsCount (s s' : State World) : Prop := s'.proposalCount = s.proposalCount

theorem expireIfDue_keepsCount {p p' : Proposal} {expired : Bool}
    (h : expireIfDue H env s id p = .ok (expired, p', s')) : KeepsCount s s' := by
  rcases expireIfDue_cases h with ⟨_, _, rfl, _⟩ | ⟨_, _, _, rfl⟩ | ⟨_, _, _, _, _, _, rfl⟩
  · rfl
  · rfl
  · rfl

theorem Expires.keepsCount {p : Proposal} (h : Expires H env s id p s') : KeepsCount s s' := by
  obtain ⟨_, h⟩ := h
  exact expireIfDue_keepsCount h

theorem pruneExpired_keepsCount (h : pruneExpired H env s id = .ok s') : KeepsCount s s' := by
  obtain ⟨_, _, _, s₁, _, hexpire, _, _, rfl⟩ := pruneExpired_ok h
  have hkept : KeepsCount s s₁ := expireIfDue_keepsCount hexpire
  exact hkept

theorem pruneOne_keepsCount {pruned pruned' : ℕ}
    (h : pruneOne H env s pruned id = .ok (pruned', s')) : KeepsCount s s' := by
  unfold pruneOne at h
  split at h
  · cases h
    rfl
  · rename_i p hp
    obtain ⟨⟨expired, p₁, s₁⟩, hexpire, h⟩ := bind_eq_ok.1 h
    have hkept : KeepsCount s s₁ := by
      rcases ignoreError_ok hexpire with hexpire | hsame
      · exact expireIfDue_keepsCount hexpire
      · cases hsame
        rfl
    dsimp only at h
    split at h
    · cases h
      exact hkept
    · cases h
      exact hkept

theorem pruneEach_keepsCount {pruned pruned' : ℕ} {ids : List ℕ}
    (h : pruneEach H env s pruned ids = .ok (pruned', s')) : KeepsCount s s' := by
  induction ids generalizing s pruned with
  | nil =>
      cases h
      rfl
  | cons id rest ih =>
      simp only [pruneEach, bind_eq_ok] at h
      obtain ⟨⟨pruned₁, s₁⟩, hone, hrest⟩ := h
      have hfirst : KeepsCount s s₁ := pruneOne_keepsCount hone
      exact (ih hrest).trans hfirst

/-- Once proposals are counted, they are. -/
theorem exec_counted (h : exec H env s call = .ok s') (hcount : s.proposalCount ≠ none) :
    s'.proposalCount ≠ none := by
  have hkept (hkept : KeepsCount s s') : s'.proposalCount ≠ none := fun hnone =>
    hcount (hkept.symm.trans hnone)
  have hview {id : ℕ} (hview : ∃ p₀ p₁ expired, s.proposal id = some p₀ ∧
      expireIfDue H env s id p₀ = .ok (expired, p₁, s')) : s'.proposalCount ≠ none := by
    obtain ⟨_, _, _, _, hexpire⟩ := hview
    exact hkept (expireIfDue_keepsCount hexpire)
  cases call with
  | initializeContract timelock multisig =>
      obtain ⟨_, hfirst, _⟩ := bind_eq_ok.1 h
      exact absurd (require_eq_ok.1 hfirst) hcount
  | create proposer org wallet policy approvers dependencies threshold deposit expiresAt
      gracePeriod =>
      obtain ⟨id, h⟩ := snd_map_ok h
      obtain ⟨_, _, _, _, _, _, rfl⟩ := create_ok h
      exact Option.some_ne_none id
  | approve caller id =>
      obtain ⟨_, h⟩ := snd_map_ok h
      obtain ⟨_, _, hexpires | ⟨_, _, _, _, _, _, _, rfl⟩⟩ := approve_ok h
      · exact hkept hexpires.keepsCount
      · exact hcount
  | reject caller id =>
      obtain ⟨_, _, hexpires | ⟨_, _, _, rfl⟩⟩ := reject_ok h
      · exact hkept hexpires.keepsCount
      · exact hcount
  | cancel caller id =>
      obtain ⟨_, _, hexpires | ⟨_, _, _, rfl⟩⟩ := cancel_ok h
      · exact hkept hexpires.keepsCount
      · exact hcount
  | execute caller id =>
      obtain ⟨_, _, ⟨_, rfl⟩ | ⟨_, _, _, _, _, _, _, rfl⟩⟩ := execute_ok h
      · exact hcount
      · exact hcount
  | fail caller id =>
      obtain ⟨_, _, hexpires | ⟨_, _, rfl⟩⟩ := fail_ok h
      · exact hkept hexpires.keepsCount
      · exact hcount
  | close caller id =>
      obtain ⟨_, _, hexpires | ⟨_, rfl⟩⟩ := close_ok h
      · exact hkept hexpires.keepsCount
      · exact hcount
  | expire id => exact hview (expire_ok h)
  | pruneExpired id | cleanupExpired id => exact hkept (pruneExpired_keepsCount h)
  | pruneExpiredBatch ids =>
      obtain ⟨_, h⟩ := snd_map_ok h
      obtain ⟨_, _, h⟩ := bind_eq_ok.1 h
      exact hkept (pruneEach_keepsCount h)
  | pruneExpiredRange startId limit =>
      obtain ⟨_, h⟩ := snd_map_ok h
      obtain ⟨_, _, h⟩ := bind_eq_ok.1 h
      obtain ⟨_, _, h⟩ := bind_eq_ok.1 h
      obtain ⟨_, _, h⟩ := bind_eq_ok.1 h
      exact hkept (pruneEach_keepsCount h)
  | get id =>
      obtain ⟨_, h⟩ := snd_map_ok h
      exact hview (get_ok h)
  | voteBars id | state id | isExpired id | isExecuted id | dependencies id | dependenciesMet id =>
      obtain ⟨_, h⟩ := snd_map_ok h
      exact hview (settledView_ok h)
  | canExecute id =>
      obtain ⟨_, h⟩ := snd_map_ok h
      exact hview (canExecute_ok h)
  | timelock =>
      cases h
      exact hcount
  | releaseAt id | timelockStatus id =>
      obtain ⟨_, _, rfl⟩ := map_ok h
      exact hcount

/-- What the contract knows of its votes: it counts proposals once it has a multisig, and every
vote on record was cast before that multisig. -/
structure Attributed (tr : List (Entry (State World) (Inputs H))) (s : State World) : Prop where
  counted : s.multisig ≠ none → s.proposalCount ≠ none
  cast : ∀ id who, s.approval id who = true →
    ∃ council q, s.multisig = some council ∧ q ∈ tr ∧ Casts council who id q

/-- One call. -/
theorem Attributed.invoke (hs : Attributed tr s) (h : exec H env s call = .ok s') :
    Attributed (tr ++ [⟨s, .invoke env call, s'⟩]) s' := by
  have hmultisig : ∀ council, s.multisig = some council → s'.multisig = some council := by
    intro council hcouncil
    have hcount := hs.counted (by simp [hcouncil])
    rcases exec_changes h with ⟨_, _, _, hinit⟩ | hchanges
    · exact absurd hinit.first hcount
    · exact hchanges.multisig.trans hcouncil
  refine ⟨?_, ?_⟩
  · intro hnamed
    rcases exec_changes h with ⟨_, _, _, hinit⟩ | hchanges
    · rw [hinit.post]
      exact Option.some_ne_none 0
    · rw [hchanges.multisig] at hnamed
      exact exec_counted h (hs.counted hnamed)
  · intro id who hvote
    rcases exec_votes h hvote with hbefore | ⟨council, hcouncil, rfl, hauth, hsigner⟩
    · obtain ⟨council, q, hcouncil, hq, hcasts⟩ := hs.cast id who hbefore
      exact ⟨council, q, hmultisig council hcouncil, List.mem_append_left _ hq, hcasts⟩
    · exact ⟨council, _, hmultisig council hcouncil,
        List.mem_append_right _ (List.mem_singleton_self _), ⟨env, rfl, hauth⟩, hcouncil, hsigner⟩

/-- **Votes are cast by their voters.**  In every run, a vote on record was given by its voter,
who signed for the one multisig the contract ever asks. -/
theorem attributed_of_path {allow : Inputs H → State World → Prop}
    (hpath : (machine H).Path allow tr s t) : Attributed tr s := by
  refine hpath.history (P := fun tr s _ => Attributed tr s) ?_ ?_
  · intro s t hinit
    have hfresh : Fresh H s := hinit
    have hnone : s.multisig = none := hfresh.multisig
    refine ⟨fun hnamed => absurd hnone hnamed, ?_⟩
    intro id who hvote
    rw [hfresh.approval id who] at hvote
    cases hvote
  · intro tr s t i s' _ hs _ _ hstep
    cases i with
    | invoke env call => exact hs.invoke hstep
    | outside time w =>
        obtain ⟨_, rfl⟩ := hstep
        refine ⟨hs.counted, ?_⟩
        intro id who hvote
        obtain ⟨council, q, hcouncil, hq, hcasts⟩ := hs.cast id who hvote
        exact ⟨council, q, hcouncil, List.mem_append_left _ hq, hcasts⟩

/-! ## The council -/

/-- The multisig answers as the electorate of its signers. -/
theorem Seats.answers (hseats : Seats H council view) {signers : List SignerWeight} {threshold : ℕ}
    {w : World} (h : Governed (view w) signers threshold) :
    (Electorate.ofSigners signers threshold).Answers H w council := by
  have hload : (view w).loadSigners = .ok signers := by
    rw [MultisigContract.State.loadSigners, h.signers_eq]
    rfl
  refine ⟨?_, ?_, ?_⟩
  · rw [hseats.threshold, MultisigContract.State.getThreshold,
      MultisigContract.State.loadThreshold, h.threshold_eq]
    rfl
  · intro who
    rw [hseats.signer, MultisigContract.State.isSigner, hload]
    rfl
  · intro who hsigner
    have hweight := (Electorate.weightIn_of_mem (of_decide_eq_true hsigner) :
      MultisigContract.weightIn signers who = .ok ((Electorate.ofSigners signers threshold).weight who))
    rw [hseats.weight, MultisigContract.State.getSignerWeight, hload, ok_bind, hweight]

/-- **Executed by the council.**  Whenever a proposal executes, distinct members of its
allow-list voted for it, as signers of the multisig when they voted, who sign still; they are
as many as its bars demand, and their current weight is what the multisig currently demands. -/
theorem executed_by_council {deps : List ℕ} (hseats : Seats H council view)
    (hpath : (machine H).Path (seated M view) tr s t) (hpart : tr₁ ++ [e] <+: tr)
    (hexecutes : executes e = some (id, deps)) (hcouncil : e.pre.multisig = some council) :
    ∃ p signers threshold voters, e.pre.proposal id = some p ∧
      Governed (view e.pre.world) signers threshold ∧ voters.Nodup ∧
      (VoteBars.forProposal p).metBy voters.length = true ∧
      threshold ≤ weightOf signers voters ∧
      ∀ who ∈ voters, who ∈ p.approvers ∧ IsSignerIn signers who ∧
        ∃ q ∈ tr₁, Casts council who id q ∧ (view q.pre.world).isSigner who = true := by
  obtain ⟨t', hbefore, _, hseated, hstep⟩ := hpath.before hpart
  obtain ⟨env, caller, p, multisig, threshold, approvals, weight, _, _, hp, _, hexecution, _⟩ :=
    executes_ok hstep hexecutes
  obtain rfl : council = multisig := Option.some.inj (hcouncil.symm.trans hexecution.multisig_eq)
  -- the signer set that governs the multisig now
  have hthreshold := hexecution.threshold_eq
  rw [hseats.threshold] at hthreshold
  obtain ⟨signers, hgoverned⟩ : ∃ signers, Governed (view e.pre.world) signers threshold := by
    rcases MultisigContract.governed_reachable hseated with hblank | ⟨signers, threshold', hg⟩
    · rw [MultisigContract.State.getThreshold, MultisigContract.State.loadThreshold,
        hblank.threshold] at hthreshold
      cases hthreshold
    · rw [MultisigContract.State.getThreshold, MultisigContract.State.loadThreshold,
        hg.threshold_eq] at hthreshold
      cases hthreshold
      exact ⟨signers, hg⟩
  -- the votes it counts
  have hreports : e.pre.Reports H (.ofSigners signers threshold) := by
    intro multisig hmultisig
    rw [hcouncil, Option.some.injEq] at hmultisig
    exact hmultisig ▸ hseats.answers hgoverned
  have hwf := (wellFormed_of_reachable hbefore.reachable id p hp).2
  obtain ⟨rfl, rfl⟩ := liveApprovalTally_ok hreports hwf.few hexecution.tally
  have hvoted : ∀ who ∈ p.approvers.filter ((Electorate.ofSigners signers threshold).voted e.pre id),
      who ∈ p.approvers ∧ e.pre.approval id who = true ∧ IsSignerIn signers who := by
    intro who hwho
    obtain ⟨hmem, hvoted⟩ := List.mem_filter.1 hwho
    simp only [Electorate.voted, Bool.and_eq_true] at hvoted
    exact ⟨hmem, hvoted.1, of_decide_eq_true hvoted.2⟩
  refine ⟨p, signers, threshold, _, hp, hgoverned, hwf.distinct.filter _, hexecution.bars, ?_, ?_⟩
  · rw [← Electorate.total_ofSigners hgoverned.wellFormed (hwf.distinct.filter _)
      fun who hwho => (hvoted who hwho).2.2]
    exact hexecution.enough
  · intro who hwho
    obtain ⟨hmem, hvote, hsigner⟩ := hvoted who hwho
    refine ⟨hmem, hsigner, ?_⟩
    obtain ⟨multisig, q, hmultisig, hq, hcasts⟩ := (attributed_of_path hbefore).cast id who hvote
    obtain rfl : council = multisig := Option.some.inj (hcouncil.symm.trans hmultisig)
    refine ⟨q, hq, hcasts, ?_⟩
    have hthen := hcasts.signer
    rw [hseats.signer, Option.some.injEq] at hthen
    exact hthen

/-! ## A run -/

/-- A multisig at `contract 5`, whose batches nobody answers. -/
def bench : MultisigContract.MultisigHost Unit where
  self := .contract 5
  invoke _ _ _ := .error none

/-- Accounts 1, 2 and 3 sign, the third with weight 2; a weight of 2 suffices. -/
def seating : List (Env (.contract 5) × MultisigContract.Call) :=
  [(signedAt 5 0 [], .initializeContract [⟨.account 1, 1⟩, ⟨.account 2, 1⟩, ⟨.account 3, 2⟩] 2)]

def seatedBench : MultisigContract.State Unit :=
  (MultisigContract.deployment bench).play MultisigContract.deployed seating

theorem seatedBench_reachable : MultisigContract.Reachable bench seatedBench := by
  have hplays : (MultisigContract.deployment bench).plays MultisigContract.deployed 0 seating
      = true := by decide
  exact Deployment.reachable_play MultisigContract.deployed_fresh hplays

/-- The proposal contract at `contract 0` on a ledger, next to that multisig. -/
def councilHost : ProposalHost (Ledger × MultisigContract.State Unit) where
  self := .contract 0
  balance w := (ledgerHost (.contract 0)).balance w.1
  transfer w asset src dst amount :=
    (fun l => (l, w.2)) <$> (ledgerHost (.contract 0)).transfer w.1 asset src dst amount
  getThreshold w multisig :=
    if multisig = .contract 5 then w.2.getThreshold.toOption else none
  isSigner w multisig who :=
    if multisig = .contract 5 then some (w.2.isSigner who) else none
  getSignerWeight w multisig who :=
    if multisig = .contract 5 then some (w.2.getSignerWeight who) else none

theorem councilHost_seats : Seats councilHost (.contract 5) Prod.snd :=
  ⟨fun _ => by simp [councilHost], fun _ _ => by simp [councilHost],
    fun _ _ => by simp [councilHost]⟩

def councilDeployed : State (Ledger × MultisigContract.State Unit) where
  world := (funds, seatedBench)
  proposalCount := none
  multisig := none
  timelock := none
  proposal _ := none
  approval _ _ := false

theorem councilDeployed_fresh : Fresh councilHost councilDeployed :=
  ⟨rfl, rfl, rfl, fun _ => rfl, fun _ _ => rfl, deployed_fresh.custody⟩

/-- Account 1 proposes, and accounts 1 and 2 approve. -/
def convening : Script Call :=
  [(signedBy 1 [], .initializeContract 0 (.contract 5)),
    (signedBy 2 [1], .create (.account 1) "org" "wallet" "policy"
      [.account 1, .account 2, .account 3] [] 1 [] 1000 0),
    (signedBy 3 [1], .approve (.account 1) 1), (signedBy 4 [2], .approve (.account 2) 1)]

def convened : State (Ledger × MultisigContract.State Unit) :=
  (deployment councilHost).play councilDeployed convening

/-- Account 1 executes it. -/
def conveningEntry : Entry (State (Ledger × MultisigContract.State Unit)) (Inputs councilHost) :=
  let call := (signedBy 5 [1], Call.execute (.account 1) 1)
  ⟨convened, .invoke call.1 call.2, (deployment councilHost).after convened call⟩

theorem convening_path : (machine councilHost).Path (seated bench Prod.snd)
    ((deployment councilHost).trace councilDeployed convening ++ [conveningEntry])
    conveningEntry.post 5 := by
  have hplays : (deployment councilHost).plays councilDeployed 0 convening = true := by decide
  have hstart : (machine councilHost).Path (seated bench Prod.snd) [] councilDeployed 0 :=
    .start councilDeployed_fresh
  have hpath := Deployment.path_play hstart hplays ⟨seatedBench_reachable, seatedBench_reachable, seatedBench_reachable,
      seatedBench_reachable, trivial⟩
  refine hpath.step (by decide) seatedBench_reachable (Deployment.step_after ?_)
  decide

/-- Their votes have the weight it takes. -/
theorem executed_by_council_convened :
    ∃ p signers threshold voters, convened.proposal 1 = some p ∧
      Governed convened.world.2 signers threshold ∧ voters.Nodup ∧
      (VoteBars.forProposal p).metBy voters.length = true ∧
      threshold ≤ weightOf signers voters ∧
      ∀ who ∈ voters, who ∈ p.approvers ∧ IsSignerIn signers who ∧
        ∃ q ∈ (deployment councilHost).trace councilDeployed convening,
          Casts (.contract 5) who 1 q ∧ q.pre.world.2.isSigner who = true := by
  have hexecutes : executes conveningEntry = some (1, []) := by decide
  exact executed_by_council councilHost_seats convening_path List.prefix_rfl hexecutes (by decide)

end ProposalContract
end Astroid
