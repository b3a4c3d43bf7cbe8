import Astroid.Multisig.Votes

/-!
# Approvals and the live quorum

An approval stays on record, whatever becomes of the signer; a tally only visits the
signers there are.  So what a proposal is executed with is the weight, at that moment, of
the signers that approved it in the run so far (`live_quorum`).  Proposals are told apart
by their number, which a `u64` counter gives out again after 2^64 of them: the old
approvals then back a new proposal, which is executed under the old number
(`not_live_quorum`).
-/

namespace Astroid
namespace MultisigContract

open Outcome Quorum Machine

variable {World : Type} {H : MultisigHost World} {env : Env H.self} {s s' : State World}
  {tr : List (Entry (State World) (Inputs H))} {e : Entry (State World) (Inputs H)} {t id : ℕ}
  {caller : Address}

/-! ## The law -/

/-- Who approves is a signer at that moment. -/
theorem approves_isSigner {i : Inputs H} {who : Address} (hstep : (machine H).step i s s')
    (happroves : approves (H := H) ⟨s, i, s'⟩ = some (id, who)) : s.IsSigner who := by
  cases i with
  | outside time w => cases happroves
  | invoke env call =>
      have hexec : exec H env s call = .ok s' := hstep
      cases call with
      | propose proposer action payload unlockAt =>
          obtain ⟨id', hpropose⟩ := snd_map_ok hexec
          obtain ⟨count, p, hsigner, _, _, _, rfl⟩ := propose_ok hpropose
          cases happroves
          exact hsigner
      | approve caller id' =>
          obtain ⟨weight, happrove⟩ := snd_map_ok hexec
          obtain ⟨p, hsigner, _⟩ := approve_ok happrove
          cases happroves
          exact hsigner
      | _ => cases happroves

/-- **Execution needs live quorum.**  In every run that does not wrap the proposal counter, each
approval is recorded once, by somebody who is a signer at that moment, and each proposal
is executed once; and when one is executed, by a signer, in an unlocked contract and at
or after its unlock time, the signers there are at that moment and that approved it in
the run so far have the weight of the threshold. -/
theorem live_quorum (hpath : (machine H).Path unwrapped tr s t) :
    (approvals tr).Nodup ∧ (executions tr).Nodup ∧
    (∀ e ∈ tr, ∀ id who, approves e = some (id, who) → e.pre.IsSigner who) ∧
    ∀ tr₁ e (env : Env H.self) caller id, tr₁ ++ [e] <+: tr →
      e.input = .invoke env (.execute caller id) →
      ∃ signers threshold p, e.pre.signers = some signers ∧ e.pre.threshold = some threshold ∧
        e.pre.proposal id = some p ∧ (signers.map (·.address)).Nodup ∧
        threshold ≤ ((signers.filter fun signer => (id, signer.address) ∈ approvals tr₁).map
          (·.weight)).sum ∧
        p.unlockAt ≤ env.timestamp ∧ caller ∈ env.auths ∧ IsSignerIn signers caller ∧
        e.pre.emergencyLock = false := by
  have hpolled := polled_of_path hpath
  refine ⟨hpolled.approvedOnce, hpolled.executedOnce, ?_, ?_⟩
  · intro e he id who happroves
    have hstep := hpath.stepped he
    exact approves_isSigner hstep happroves
  · intro tr₁ e env caller id hpart hinput
    obtain ⟨t', hpath₁, _, _, hstep⟩ := hpath.before hpart
    rw [hinput] at hstep
    have hexec : execute H env e.pre caller id = .ok e.post := hstep
    obtain ⟨p, status, hlock, hauth, ⟨signers, hsigners, hmem⟩, hp, _, hstatus, hmet, hunlocked,
      _⟩ := execute_ok hexec
    obtain ⟨threshold, hg⟩ := governed_of_signers hpath₁.reachable hsigners
    rw [hg.wellFormed.quorumStatus_eq hsigners hg.threshold_eq, Except.ok.injEq] at hstatus
    subst hstatus
    have hquorum : threshold ≤ approvedWeight e.pre id signers := of_decide_eq_true hmet
    refine ⟨signers, threshold, p, hsigners, hg.threshold_eq, hp, hg.wellFormed.distinct, ?_,
      hunlocked, hauth, hmem, hlock⟩
    have hsame : (signers.filter fun signer => (id, signer.address) ∈ approvals tr₁)
        = signers.filter fun signer => e.pre.approval id signer.address := by
      refine List.filter_congr fun signer _ => ?_
      rw [Bool.eq_iff_iff, decide_eq_true_eq]
      exact ((polled_of_path hpath₁).approved id signer.address).symm
    rw [hsame]
    exact hquorum

/-- After the opening account 1 proposes, account 2 approves and account 1 executes. -/
def payment : Script Call :=
  opening ++ [(signedBy 10 [1], .propose (.account 1) "pay" [] 0),
    (signedBy 10 [2], .approve (.account 2) 1), (signedBy 10 [1], .execute (.account 1) 1)]

/-- The one execution of the payment. -/
theorem live_quorum_payment :
    (executions ((deployment referenceHost).trace deployed payment)).Nodup := by
  have hstart : (machine referenceHost).Path unwrapped [] deployed 0 := .start deployed_fresh
  have hplays : (deployment referenceHost).plays deployed 0 payment = true := by decide
  have hcount : (play deployed opening).proposalCount ≠ some (2 ^ 64 - 1) := by decide
  have hallow : (deployment referenceHost).AllAllowed unwrapped deployed payment :=
    ⟨trivial, hcount, trivial, trivial, trivial⟩
  have hpath := Deployment.path_play hstart hplays hallow
  rw [List.nil_append] at hpath
  exact (live_quorum hpath).2.1

/-! ## A number given out again -/

/-- **A signer can always propose** in an unlocked contract. -/
theorem Governed.propose_returns {signers : List SignerWeight} {threshold weight count : ℕ}
    {action : String} {payload : List UInt8} {unlockAt : UInt64}
    (hg : Governed s signers threshold) (hlock : s.emergencyLock = false)
    (hauth : caller ∈ env.auths) (hweight : weightIn signers caller = .ok weight)
    (hcount : s.proposalCount = some count) (haction : isQuorumOrWeightAction action = false) :
    let id := (count + 1) % 2 ^ 64
    propose H env s caller action payload unlockAt = .ok (id,
      { (s.storeProposal id ⟨caller, action, payload, weight, false, unlockAt⟩).storeApproval
          id caller with proposalCount := some id }) := by
  intro id
  have hstatus := hg.wellFormed.quorumStatus_eq (s := { (s.storeProposal id
    ⟨caller, action, payload, weight, false, unlockAt⟩).storeApproval id caller with
      proposalCount := some id }) hg.signers_eq hg.threshold_eq id
  simp only [propose, State.requireNotLocked, requireSignerWeight, State.loadSigners,
    hg.signers_eq, haction, Bool.false_eq_true, false_and, if_false, bind_eq_ok, okOr_eq_ok,
    require_eq_ok, requireAuth_eq_ok, pure_eq_ok]
  exact ⟨(), hlock, weight, ⟨(), hauth, signers, rfl, hweight⟩, count, hcount, _, hstatus, rfl⟩

/-- **A signer can execute** a proposal that has the quorum and is not time-locked any more. -/
theorem Governed.execute_returns {signers : List SignerWeight} {threshold : ℕ} {p : MsProposal}
    (hg : Governed s signers threshold) (hlock : s.emergencyLock = false)
    (hauth : caller ∈ env.auths) (hsigner : IsSignerIn signers caller)
    (hp : s.proposal id = some p) (hopen : p.executed = false)
    (hunlocked : p.unlockAt ≤ env.timestamp)
    (hquorum : threshold ≤ approvedWeight s id signers) :
    ∃ s', execute H env s caller id = .ok s' := by
  have hstatus := hg.wellFormed.quorumStatus_eq hg.signers_eq hg.threshold_eq id
  have hmet : isMet (approvedWeight s id signers) threshold = true := decide_eq_true hquorum
  refine ⟨s.storeProposal id { p with
    approvalWeight := approvedWeight s id signers
    executed := true }, ?_⟩
  simp only [execute, State.requireNotLocked, requireSigner, State.loadSigners, State.loadProposal,
    QuorumStatus.ensureMet, hg.signers_eq, bind_eq_ok, okOr_eq_ok, require_eq_ok,
    requireAuth_eq_ok, pure_eq_ok]
  exact ⟨(), hlock, (), ⟨(), hauth, signers, rfl, hsigner⟩, p, hp, (), hopen, _, hstatus, (), hmet,
    (), requireUnlocked_eq_ok.2 hunlocked, rfl⟩

/-- Proposal 1 was approved by both signers and executed, and the proposals made since took
the counter to `n`. -/
structure Reissued (n : ℕ) (tr : List (Entry (State Unit) (Inputs referenceHost)))
    (s : State Unit) : Prop where
  governed : Governed s pair 2
  unlocked : s.emergencyLock = false
  approved : s.approval 1 (.account 1) = true ∧ s.approval 1 (.account 2) = true
  executed : executions tr = [1]
  counter : s.proposalCount = some (n % 2 ^ 64)
  latest : ∃ p, s.proposal (n % 2 ^ 64) = some p ∧ p.executed = false ∧ p.unlockAt = 0

/-- Another proposal by account 1. -/
theorem Reissued.next {n : ℕ} {tr : List (Entry (State Unit) (Inputs referenceHost))}
    {s : State Unit} (h : Reissued n tr s) :
    ∃ i s', (machine referenceHost).time i = 10 ∧ anyInput i s ∧
      (machine referenceHost).step i s s' ∧ Reissued (n + 1) (tr ++ [⟨s, i, s'⟩]) s' := by
  have hweight : weightIn pair (.account 1) = .ok 1 := by decide
  have hauth : .account 1 ∈ (signedBy 10 [1]).auths := by decide
  have hpropose : propose referenceHost (signedBy 10 [1]) s (.account 1) "pay" [] 0 = _ :=
    h.governed.propose_returns h.unlocked hauth hweight h.counter (by decide)
  have hid : (n % 2 ^ 64 + 1) % 2 ^ 64 = (n + 1) % 2 ^ 64 := by omega
  rw [hid] at hpropose
  refine ⟨.invoke (signedBy 10 [1]) (.propose (.account 1) "pay" [] 0), _, rfl, trivial,
    congrArg (Prod.snd <$> ·) hpropose, ?_⟩
  obtain ⟨hfirst, hsecond⟩ := h.approved
  refine ⟨⟨h.governed.signers_eq, h.governed.threshold_eq, h.governed.wellFormed⟩, h.unlocked,
    ⟨approval_storeApproval.2 (.inl hfirst), approval_storeApproval.2 (.inl hsecond)⟩, ?_, rfl,
    ⟨⟨.account 1, "pay", [], 1, false, 0⟩, Function.update_self .., rfl, rfl⟩⟩
  exact (log_none rfl).trans h.executed

/-- The payment, and a second proposal. -/
def payments : Script Call :=
  payment ++ [(signedBy 10 [1], .propose (.account 1) "pay" [] 0)]

theorem payments_reissued :
    Reissued 2 ((deployment referenceHost).trace deployed payments) (play deployed payments) := by
  have hsigners : (play deployed payments).signers = some pair := by decide
  have hthreshold : (play deployed payments).threshold = some 2 := by decide
  refine ⟨⟨hsigners, hthreshold, pair_wellFormed⟩, by decide,
    ⟨by decide, by decide⟩, by decide, by decide, ?_⟩
  exact ⟨⟨.account 1, "pay", [], 1, false, 0⟩, by decide, rfl, rfl⟩

/-- **A number is executed twice.**  Both signers approve proposal 1 and it is executed.
Account 1 alone then makes 2^64 proposals; the last of them has number 1 again, and the
approvals of the first one execute it. -/
theorem not_live_quorum :
    ¬ ∀ tr s t, (machine referenceHost).Path anyInput tr s t → (executions tr).Nodup := by
  intro h
  have hplays : (deployment referenceHost).plays deployed 0 payments = true := by decide
  have hpath := Deployment.path_trace deployed_fresh hplays
  obtain ⟨tr, s, hpath', hreissued⟩ := hpath.iterate (Q := fun n => Reissued (n + 2))
    payments_reissued (fun n tr s h => h.next) (2 ^ 64 - 1)
  have hwrapped : (2 ^ 64 - 1 + 2) % 2 ^ 64 = 1 := by decide
  obtain ⟨p, hp, hopen, hunlock⟩ := hreissued.latest
  rw [hwrapped] at hp
  have hquorum : approvedWeight s 1 pair = 2 := by
    obtain ⟨hfirst, hsecond⟩ := hreissued.approved
    simp [pair, hfirst, hsecond]
  have hsigner : .account 1 ∈ (signedBy 10 [1]).auths := by decide
  obtain ⟨s', hexecute⟩ := hreissued.governed.execute_returns (H := referenceHost)
    hreissued.unlocked hsigner (by decide) hp hopen (hunlock ▸ UInt64.zero_le) hquorum.ge
  have hstep : (machine referenceHost).step
      (.invoke (signedBy 10 [1]) (.execute (.account 1) 1)) s s' := hexecute
  have htwice := h _ _ _ (hpath'.step le_rfl trivial hstep)
  have hlog : executions (tr ++ [⟨s, .invoke (signedBy 10 [1]) (.execute (.account 1) 1), s'⟩])
      = executions tr ++ [1] := log_some rfl
  rw [hlog, hreissued.executed] at htwice
  exact absurd htwice (by decide)

end MultisigContract
end Astroid
