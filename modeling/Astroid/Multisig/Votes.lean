import Astroid.Lib.Records
import Astroid.Multisig.Frame

/-!
# The votes of a run

`propose`, `approve` and `execute` write the proposals and the approvals.  As long as the
proposal counter does not wrap, what is on record is what the run did: an approval is on
record where a call of the run recorded it, a proposal is executed where a call executed
it, and neither happened twice (`Polled`).
-/

namespace Astroid
namespace MultisigContract

open Outcome Quorum Machine

variable {World : Type} {H : MultisigHost World} {env : Env H.self} {s s' : State World}
  {tr : List (Entry (State World) (Inputs H))} {e : Entry (State World) (Inputs H)} {t id : ℕ}
  {caller : Address}

/-! ## What a run recorded -/

/-- The proposal an entry of a run recorded an approval of, and who approved it. -/
def approves (e : Entry (State World) (Inputs H)) : Option (ℕ × Address) :=
  match e.input with
  | .invoke _ (.propose proposer _ _ _) => e.post.proposalCount.map fun id => (id, proposer)
  | .invoke _ (.approve caller id) => some (id, caller)
  | _ => none

/-- The proposal an entry of a run executed. -/
def executes (e : Entry (State World) (Inputs H)) : Option ℕ :=
  match e.input with
  | .invoke _ (.execute _ id) => some id
  | _ => none

/-- The approvals a run recorded, one for each call that returned. -/
def approvals (tr : List (Entry (State World) (Inputs H))) : List (ℕ × Address) := log approves tr

/-- The proposals a run executed. -/
def executions (tr : List (Entry (State World) (Inputs H))) : List ℕ := log executes tr

/-- No proposal is made while the counter is at its largest value. -/
def unwrapped : Inputs H → State World → Prop
  | .invoke _ (.propose ..), s => s.proposalCount ≠ some (2 ^ 64 - 1)
  | _, _ => True

/-- The records are those of the run: an approval is on record where the run recorded it,
and a proposal is executed where the run executed it. -/
structure Polled (tr : List (Entry (State World) (Inputs H))) (s : State World) : Prop where
  numbered : Numbered (s.proposalCount.getD 0) s.proposal
  backed : ∀ id who, s.approval id who = true → s.proposal id ≠ none
  approved : ∀ id who, s.approval id who = true ↔ (id, who) ∈ approvals tr
  executed : Faithful s.proposal MsProposal.executed executes tr
  approvedOnce : (approvals tr).Nodup
  executedOnce : (executions tr).Nodup

theorem approval_storeApproval {id' : ℕ} {who : Address} :
    (s.storeApproval id caller).approval id' who = true ↔
      s.approval id' who = true ∨ id' = id ∧ who = caller := by
  by_cases hid : id' = id
  · subst hid
    by_cases hwho : who = caller <;> simp [State.storeApproval, hwho]
  · simp [State.storeApproval, hid]

namespace Polled

/-- A step that leaves the records alone; the counter may start. -/
theorem quiet (h : Polled tr s) (happroves : approves e = none) (hexecutes : executes e = none)
    (hproposal : s'.proposal = s.proposal) (happroval : s'.approval = s.approval)
    (hcount : s'.proposalCount.getD 0 = s.proposalCount.getD 0) : Polled (tr ++ [e]) s' := by
  have happrovals : approvals (tr ++ [e]) = approvals tr := log_none happroves
  have hexecutions : executions (tr ++ [e]) = executions tr := log_none hexecutes
  refine ⟨?_, ?_, ?_, ?_, happrovals ▸ h.approvedOnce, hexecutions ▸ h.executedOnce⟩
  · rw [hcount, hproposal]
    exact h.numbered
  · rw [hproposal, happroval]
    exact h.backed
  · rw [happroval, happrovals]
    exact h.approved
  · rw [hproposal]
    exact h.executed.quiet hexecutes

/-- What an entry that recorded an approval does to the approvals. -/
theorem approved_storeApproval (h : Polled tr s) (happroves : approves e = some (id, caller))
    (id' : ℕ) (who : Address) :
    (s.storeApproval id caller).approval id' who = true ↔ (id', who) ∈ approvals (tr ++ [e]) := by
  have happrovals : approvals (tr ++ [e]) = approvals tr ++ [(id, caller)] := log_some happroves
  rw [happrovals, List.mem_append, List.mem_singleton, Prod.mk.injEq, ← h.approved]
  exact approval_storeApproval

/-- An approval that is new is recorded once. -/
theorem approvals_nodup (h : Polled tr s) (happroves : approves e = some (id, caller))
    (hnew : s.approval id caller = false) : (approvals (tr ++ [e])).Nodup := by
  refine log_nodup h.approvedOnce happroves ?_
  change (id, caller) ∉ approvals tr
  rw [← h.approved, hnew]
  exact Bool.false_ne_true

/-- What backs an approval after a proposal was written. -/
theorem backed_storeApproval (h : Polled tr s) {p : MsProposal} {id' : ℕ} {who : Address}
    (happroved : (s.storeApproval id caller).approval id' who = true) :
    Function.update s.proposal id (some p) id' ≠ none := by
  by_cases hid : id' = id
  · subst hid
    simp
  · rw [Function.update_of_ne hid]
    rcases approval_storeApproval.1 happroved with happroved | ⟨hsame, _⟩
    · exact h.backed id' who happroved
    · exact absurd hsame hid

/-- A new proposal has a new number, and its proposer's approval. -/
theorem propose (h : Polled tr s) {count : ℕ} {p : MsProposal}
    (happroves : approves e = some (id, caller)) (hexecutes : executes e = none)
    (hcount : s.proposalCount = some count) (hid : id = (count + 1) % 2 ^ 64)
    (hunwrapped : s.proposalCount ≠ some (2 ^ 64 - 1)) (hopen : p.executed = false)
    (hs' : s' = { (s.storeProposal id p).storeApproval id caller with
      proposalCount := some id }) : Polled (tr ++ [e]) s' := by
  have hnumbered := h.numbered
  rw [hcount, Option.getD_some] at hnumbered
  have hlast : count ≠ 2 ^ 64 - 1 := by
    rintro rfl
    exact hunwrapped hcount
  have hfresh := hnumbered.fresh hlast hid
  have hunapproved : s.approval id caller = false := by
    rw [← Bool.not_eq_true]
    exact fun htrue => h.backed id caller htrue hfresh
  have hunexecuted : id ∉ executions tr := by
    refine h.executed.not_mem ?_
    intro q hq
    rw [hfresh] at hq
    cases hq
  have hexecutions : executions (tr ++ [e]) = executions tr := log_none hexecutes
  subst hs'
  refine ⟨hnumbered.issue hlast hid rfl, ?_, h.approved_storeApproval happroves, ?_,
    h.approvals_nodup happroves hunapproved, hexecutions ▸ h.executedOnce⟩
  · exact fun id' who happroved => h.backed_storeApproval happroved
  · refine h.executed.update hunexecuted rfl ?_
    rw [hopen]
    exact hexecutes

/-- A signer approves a proposal that it has not approved. -/
theorem approve (h : Polled tr s) {p : MsProposal} {weight : ℕ}
    (happroves : approves e = some (id, caller)) (hexecutes : executes e = none)
    (hp : s.proposal id = some p) (hnew : s.approval id caller = false)
    (hs' : s' = (s.storeApproval id caller).storeProposal id { p with approvalWeight := weight }) :
    Polled (tr ++ [e]) s' := by
  have hexecutions : executions (tr ++ [e]) = executions tr := log_none hexecutes
  subst hs'
  refine ⟨h.numbered.write hp rfl, ?_, h.approved_storeApproval happroves,
    h.executed.rewrite hp rfl rfl hexecutes, h.approvals_nodup happroves hnew,
    hexecutions ▸ h.executedOnce⟩
  exact fun id' who happroved => h.backed_storeApproval happroved

/-- A proposal that was not executed is. -/
theorem execute (h : Polled tr s) {p : MsProposal} {weight : ℕ} (happroves : approves e = none)
    (hexecutes : executes e = some id) (hp : s.proposal id = some p) (hopen : p.executed = false)
    (hs' : s' = s.storeProposal id { p with approvalWeight := weight, executed := true }) :
    Polled (tr ++ [e]) s' := by
  have happrovals : approvals (tr ++ [e]) = approvals tr := log_none happroves
  have hunexecuted : id ∉ executions tr := h.executed.not_mem_of_eq hp hopen
  subst hs'
  refine ⟨h.numbered.write hp rfl, ?_, ?_, h.executed.update hunexecuted rfl hexecutes,
    happrovals ▸ h.approvedOnce, log_nodup h.executedOnce hexecutes hunexecuted⟩
  · intro id' who happroved
    have hbacked := h.backed id' who happroved
    by_cases hid' : id' = id
    · subst hid'
      simp [State.storeProposal]
    · simpa [State.storeProposal, hid'] using hbacked
  · rw [happrovals]
    exact h.approved

end Polled

/-- A call that does not vote is not an entry of either record. -/
theorem not_votes {call : Call} (h : ¬ call.Votes) :
    approves (H := H) ⟨s, .invoke env call, s'⟩ = none ∧
      executes (H := H) ⟨s, .invoke env call, s'⟩ = none := by
  cases call <;> first | exact absurd trivial h | exact ⟨rfl, rfl⟩

/-- **Every step keeps the records those of the run.** -/
theorem Polled.step (h : Polled tr s) {i : Inputs H} (hreach : Reachable H s)
    (hunwrapped : unwrapped i s) (hstep : (machine H).step i s s') :
    Polled (tr ++ [⟨s, i, s'⟩]) s' := by
  cases i with
  | outside time w =>
      obtain rfl := hstep
      exact h.quiet rfl rfl rfl rfl rfl
  | invoke env call =>
      have hexec : exec H env s call = .ok s' := hstep
      rcases governed_reachable hreach with hblank | ⟨signers, threshold, hg⟩
      · obtain ⟨signers, threshold, rfl⟩ := initialize_of_unsigned hblank.signers hexec
        obtain ⟨_, rfl⟩ := initializeContract_ok hexec
        exact h.quiet rfl rfl rfl rfl (by rw [hblank.proposalCount]; rfl)
      · have hinitialized : s.threshold ≠ none := by
          rw [hg.threshold_eq]
          exact Option.some_ne_none _
        by_cases hvotes : call.Votes
        · cases call with
          | propose proposer action payload unlockAt =>
              obtain ⟨id, hpropose⟩ := snd_map_ok hexec
              obtain ⟨count, p, _, hcount, hid, hopen, rfl⟩ := propose_ok hpropose
              exact h.propose rfl rfl hcount hid hunwrapped hopen rfl
          | approve caller id =>
              obtain ⟨weight, happrove⟩ := snd_map_ok hexec
              obtain ⟨p, _, hp, _, hnew, hs'⟩ := approve_ok happrove
              exact h.approve rfl rfl hp hnew hs'
          | execute caller id =>
              obtain ⟨p, status, _, _, _, hp, hopen, _, _, _, hs'⟩ := execute_ok hexec
              exact h.execute rfl rfl hp hopen hs'
          | _ => exact hvotes.elim
        · have hnone : approves (H := H) ⟨s, .invoke env call, s'⟩ = none ∧
              executes (H := H) ⟨s, .invoke env call, s'⟩ = none := not_votes hvotes
          obtain ⟨happroves, hexecutes⟩ := hnone
          have hsame := (exec_frame hinitialized hexec).1 hvotes
          exact h.quiet happroves hexecutes hsame.proposal hsame.approval
            (by rw [hsame.proposalCount])

theorem polled_of_path (hpath : (machine H).Path unwrapped tr s t) : Polled tr s := by
  refine hpath.history (P := fun tr s _ => Polled tr s) ?_ ?_
  · intro s t hfresh
    refine ⟨?_, ?_, ?_, .nil hfresh.proposal, List.nodup_nil, List.nodup_nil⟩
    · rw [hfresh.proposalCount]
      exact .empty hfresh.proposal
    · intro id who happroved
      rw [hfresh.approval id who] at happroved
      cases happroved
    · intro id who
      simp [approvals, log, hfresh.approval id who]
  · intro tr s t i s' hpath hpolled _ hallow hstep
    exact hpolled.step hpath.reachable hallow hstep

end MultisigContract
end Astroid
