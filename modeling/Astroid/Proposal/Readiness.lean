import Astroid.Proposal.Changes

/-!
# The view and the entrypoint

`can_execute` passes the gates of `execute` in another order, through other helpers, and
answers instead of failing.  Both come down to the same list of open gates (`Execution`):
the view answers yes exactly when the list holds, and with the list the entrypoint is the
return of the deposit and nothing else.

A view settles a stale proposal before it looks.  `execute` refuses that proposal on its
deadline before it looks at its state, so it refuses the settled record as well.
-/

namespace Astroid
namespace ProposalContract

open Outcome

variable {World : Type} {H : ProposalHost World} {env env' : Env H.self} {s s' : State World}
  {id : ℕ} {p p' : Proposal} {caller : Address}

/-! ## The view -/

/-- `Proposal::can_execute` asks for three of the gates. -/
theorem Proposal.canExecute_eq_true : p.canExecute H env s = true ↔
    p.state = .approved ∧ ¬ p.IsExpired env ∧
      requireReleased env p.approvedAt s.timelockDelay = .ok () := by
  simp only [Proposal.canExecute, requireTimelockElapsed, Bool.and_eq_true, decide_eq_true_eq,
    isOk_iff]
  constructor
  · rintro ⟨⟨hactive, happroved⟩, u, hreleased⟩
    exact ⟨happroved, hactive.1, hreleased⟩
  · rintro ⟨happroved, hunexpired, hreleased⟩
    have hlive : p.state.isLive = true := by simp [happroved, ProposalState.isLive]
    exact ⟨⟨⟨hunexpired, hlive⟩, happroved⟩, (), hreleased⟩

/-- An expired record is not executable. -/
theorem Proposal.canExecute_of_expired (hstate : p.state = .expired) :
    p.canExecute H env s = false := by
  simp [Proposal.canExecute, hstate]

/-- **What the view says yes to**: every gate is open, and nothing was settled. -/
theorem canExecute_eq_true : canExecute H env s id = .ok (true, s') ↔
    s' = s ∧ ∃ p multisig threshold approvals weight, s.proposal id = some p ∧
      Execution H env s id p multisig threshold approvals weight := by
  constructor
  · intro h
    simp only [canExecute, State.load, bind_eq_ok, okOr_eq_ok] at h
    obtain ⟨p, hp, ⟨expired, p₁, s₁⟩, hexpire, h⟩ := h
    split at h
    · rename_i hready
      rcases expireIfDue_cases hexpire with ⟨_, rfl, rfl, _⟩ | ⟨_, hstate, rfl, rfl⟩ | ⟨_, _, _, rfl, _⟩
      · obtain ⟨happroved, hunexpired, hreleased⟩ := Proposal.canExecute_eq_true.1 hready
        obtain ⟨⟨approvals, weight⟩, htally, h⟩ := bind_eq_ok.1 h
        dsimp only at h
        split at h
        · rename_i hbars
          simp only [State.loadMultisig, bind_eq_ok, okOr_eq_ok, orFail_eq_ok] at h
          obtain ⟨multisig, hmultisig, threshold, hthreshold, h⟩ := h
          split at h
          · cases h
          · rename_i henough
            simp only [pure_eq_ok, Prod.mk.injEq, isOk_iff] at h
            obtain ⟨⟨_, hmet⟩, rfl⟩ := h
            simp only [isOk_iff, ensureVoteValid, VoteBars.ensureMet, require_eq_ok] at hbars
            obtain ⟨_, hbars⟩ := hbars
            exact ⟨rfl, p₁, multisig, threshold, approvals, weight, hp, ⟨happroved, hunexpired,
              htally, hbars, hmultisig, hthreshold, not_lt.1 henough, hreleased, hmet⟩⟩
        · cases h
      · rw [Proposal.canExecute_of_expired hstate] at hready
        cases hready
      · rw [Proposal.canExecute_of_expired rfl] at hready
        cases hready
    · cases h
  · rintro ⟨rfl, p, multisig, threshold, approvals, weight, hp, hexecution⟩
    have hexpire : expireIfDue H env s' id p = .ok (false, p, s') :=
      expireIfDue_of_approved hexecution.approved hexecution.unexpired
    have hready : p.canExecute H env s' = true :=
      Proposal.canExecute_eq_true.2 ⟨hexecution.approved, hexecution.unexpired, hexecution.released⟩
    have hbars : (ensureVoteValid { p with approvals := approvals, approvalWeight := weight }).isOk
        = true := by
      simp only [isOk_iff, ensureVoteValid, VoteBars.ensureMet, require_eq_ok]
      exact ⟨(), hexecution.bars⟩
    simp only [canExecute, State.load, State.loadMultisig, bind_eq_ok, okOr_eq_ok]
    refine ⟨p, hp, _, hexpire, ?_⟩
    rw [if_pos hready, bind_eq_ok]
    refine ⟨_, hexecution.tally, ?_⟩
    rw [if_pos hbars, bind_eq_ok]
    refine ⟨multisig, by simpa using hexecution.multisig_eq, ?_⟩
    rw [bind_eq_ok]
    refine ⟨threshold, by simpa using hexecution.threshold_eq, ?_⟩
    rw [if_neg (not_lt.2 hexecution.enough), pure_eq_ok, Prod.mk.injEq, isOk_iff]
    exact ⟨⟨(), hexecution.met⟩, rfl⟩

/-! ## The entrypoint -/

/-- **With its gates open, the entrypoint returns the deposit** and records the execution. -/
theorem execute_of_execution {multisig : Address} {threshold approvals weight : ℕ}
    (hauth : p.proposer ∈ env.auths) (hp : s.proposal id = some p)
    (hexecution : Execution H env s id p multisig threshold approvals weight)
    (hreturn : returnDeposit H s p = .ok s') :
    execute H env s p.proposer id = .ok (s'.store id
      { p with approvals := approvals, approvalWeight := weight, state := .executed }) := by
  have hexpire : expireIfDue H env s id p = .ok (false, p, s) :=
    expireIfDue_of_approved hexecution.approved hexecution.unexpired
  simp only [execute, State.load, bind_eq_ok, requireAuth_eq_ok, okOr_eq_ok, require_eq_ok]
  refine ⟨(), hauth, p, hp, (), hexecution.unexpired, _, hexpire, ?_⟩
  simp only [Bool.false_eq_true, if_false, State.loadMultisig, ensureVoteValid,
    VoteBars.ensureMet, requireTimelockElapsed, assertTransition, bind_eq_ok, okOr_eq_ok,
    require_eq_ok, orFail_eq_ok, ensure_eq_ok, pure_eq_ok]
  have hmay : p.state.mayTransition .executed = true := by
    rw [hexecution.approved]
    rfl
  exact ⟨(), trivial, (), hexecution.approved, _, hexecution.tally, (), hexecution.bars,
    multisig, hexecution.multisig_eq, threshold, hexecution.threshold_eq, (),
    not_lt.2 hexecution.enough, (), hexecution.released, (), hexecution.met, (), hmay, s',
    hreturn, rfl⟩

/-- A proposal past its deadline is refused on that ground, whatever its state is. -/
theorem execute_of_expired (hauth : caller ∈ env.auths) (hp : s.proposal id = some p)
    (hdue : p.IsExpired env) : execute H env s caller id = .error (.error .proposalExpired) := by
  have hcaller : requireAuth env caller = .ok () := requireAuth_eq_ok.2 hauth
  have hload : s.load id = .ok p := okOr_eq_ok.2 hp
  rw [execute, hcaller, ok_bind, hload, ok_bind, require_neg (not_not.2 hdue)]
  rfl

/-! ## After the view -/

/-- **What the view may write**: the expiry of a live proposal past its deadline. -/
theorem canExecute_settles {answer : Bool} (h : canExecute H env s id = .ok (answer, s')) :
    s' = s ∨ ∃ p, s.proposal id = some p ∧ p.state.isLive = true ∧ p.IsExpired env ∧
      expireIfDue H env s id p = .ok (true, { p with state := .expired }, s') ∧
      s'.proposal id = some { p with state := .expired } := by
  obtain ⟨p, p₁, expired, hp, hexpire⟩ := canExecute_ok h
  rcases expireIfDue_cases hexpire with ⟨_, _, hsame, _⟩ | ⟨_, _, _, hsame⟩ | ⟨rfl, hlive, hdue, rfl, _⟩
  · exact .inl hsame
  · exact .inl hsame
  · exact .inr ⟨p, hp, hlive, hdue, hexpire, (expireIfDue_stored hp hexpire).1⟩

/-- **The view first makes no difference to the entrypoint**, now or later. -/
theorem execute_after_canExecute {answer : Bool} (h : canExecute H env s id = .ok (answer, s'))
    (hlater : env.timestamp ≤ env'.timestamp) :
    execute H env' s' caller id = execute H env' s caller id := by
  rcases canExecute_settles h with rfl | ⟨p, hp, _, hdue, _, hp'⟩
  · rfl
  · by_cases hauth : caller ∈ env'.auths
    · -- the settled record has the deadline of the one it replaced
      have hstill : p.IsExpired env' := ⟨hdue.1, UInt64.le_trans hdue.2 hlater⟩
      rw [execute_of_expired hauth hp hstill, execute_of_expired hauth hp' hstill]
    · have htrap : requireAuth env' caller = .error .trap := ensure_neg hauth
      rw [execute, execute, htrap]
      rfl

/-! ## The agreement -/

/-- **The view is exact.**  With the proposer's authorization and a deposit its token gives
back, the view answers yes exactly when the entrypoint would execute the proposal, and a
view before the entrypoint changes nothing that the entrypoint does. -/
theorem can_execute_exact (H : ProposalHost World) (env : Env H.self) (s : State World) (id : ℕ)
    (hauth : ∀ p, s.proposal id = some p → p.proposer ∈ env.auths)
    (hreturns : ∀ p, s.proposal id = some p → ∃ s', returnDeposit H s p = .ok s') :
    ((∃ s', canExecute H env s id = .ok (true, s')) ↔
      ∃ p s' p', s.proposal id = some p ∧ execute H env s p.proposer id = .ok s' ∧
        p.state ≠ .executed ∧ s'.proposal id = some p' ∧ p'.state = .executed) ∧
    ∀ answer s', canExecute H env s id = .ok (answer, s') →
      (s' = s ∨ ∃ p, s.proposal id = some p ∧ p.state.isLive = true ∧ p.IsExpired env ∧
        expireIfDue H env s id p = .ok (true, { p with state := .expired }, s')) ∧
      ∀ env' : Env H.self, env.timestamp ≤ env'.timestamp →
        ∀ caller, execute H env' s' caller id = execute H env' s caller id := by
  refine ⟨⟨?_, ?_⟩, ?_⟩
  · rintro ⟨s', h⟩
    obtain ⟨rfl, p, multisig, threshold, approvals, weight, hp, hexecution⟩ := canExecute_eq_true.1 h
    obtain ⟨s₁, hreturn⟩ := hreturns p hp
    refine ⟨p, _, _, hp, execute_of_execution (hauth p hp) hp hexecution hreturn, ?_,
      Function.update_self .., rfl⟩
    rw [hexecution.approved]
    decide
  · rintro ⟨p, s', p', hp, hexecute, hopen, hp', hstate⟩
    obtain ⟨q, hq, hcases⟩ := execute_ok hexecute
    rw [hp, Option.some.injEq] at hq
    subst hq
    rcases hcases with ⟨_, rfl⟩ | ⟨multisig, threshold, approvals, weight, hexecution, _⟩
    · -- a proposal that is left as it was is not executed by the call
      rw [hp, Option.some.injEq] at hp'
      rw [hp'] at hopen
      exact absurd hstate hopen
    · exact ⟨s, canExecute_eq_true.2 ⟨rfl, p, multisig, threshold, approvals, weight, hp,
        hexecution⟩⟩
  · intro answer s' h
    refine ⟨?_, fun env' hlater caller => execute_after_canExecute h hlater⟩
    rcases canExecute_settles h with hsame | ⟨p, hp, hlive, hdue, hexpire, _⟩
    · exact .inl hsame
    · exact .inr ⟨p, hp, hlive, hdue, hexpire⟩

/-- The opening and the two approvals it needs. -/
def approving : Script Call :=
  opening ++ [(signedBy 3 [1], .approve (.account 1) 1), (signedBy 3 [2], .approve (.account 2) 1)]

/-- The view says yes to the approved proposal, so its proposer executes it. -/
theorem can_execute_exact_approved :
    ∃ p s' p', (play deployed approving).proposal 1 = some p ∧
      execute referenceHost (signedBy 4 [1]) (play deployed approving) p.proposer 1 = .ok s' ∧
      p.state ≠ .executed ∧ s'.proposal 1 = some p' ∧ p'.state = .executed := by
  have hyes : (Prod.fst <$> canExecute referenceHost (signedBy 4 [1]) (play deployed approving) 1)
      = .ok true := by decide
  have hrecord : ((play deployed approving).proposal 1).map (fun p => (p.proposer, p.deposit))
      = some (.account 1, [⟨.contract 7, 100⟩]) := by decide
  obtain ⟨⟨answer, s'⟩, hview, rfl⟩ := map_ok hyes
  refine (can_execute_exact referenceHost (signedBy 4 [1]) (play deployed approving) 1 ?_ ?_).1.1
    ⟨s', hview⟩
  · intro p hp
    rw [hp, Option.map_some, Option.some.injEq, Prod.mk.injEq] at hrecord
    rw [hrecord.1]
    decide
  · intro p hp
    rw [hp, Option.map_some, Option.some.injEq, Prod.mk.injEq] at hrecord
    have hpaid : (referenceHost.transferOrTrap (play deployed approving).world (.contract 7)
        (.contract 0) (.account 1) 100).isOk = true := by decide
    obtain ⟨w, hpaid⟩ := isOk_iff.1 hpaid
    refine ⟨{ play deployed approving with world := w }, ?_⟩
    rw [returnDeposit, hrecord.2, hrecord.1]
    simp only [bind_eq_ok, pure_eq_ok]
    exact ⟨w, hpaid, rfl⟩

end ProposalContract
end Astroid
