import Astroid.Proposal.Order

/-!
# Whether a prerequisite stays met

A proposal that has executed is at most closed, so it stays met (`executed_stays_met`) in
every run that neither prunes it past its deadline nor gives out its number again.  Pruning
takes executed proposals as well as expired ones, and a dependent that finds no record is
refused for good (`not_executed_stays_met`).
-/

namespace Astroid
namespace ProposalContract

open Outcome Machine

variable {World : Type} {H : ProposalHost World} {env : Env H.self} {s s' : State World}
  {tr tr₁ tr₂ : List (Entry (State World) (Inputs H))} {e : Entry (State World) (Inputs H)}
  {t dep : ℕ} {p : Proposal} {call : Call}

/-- `dep` is on record as executed. -/
def State.Executed (s : State World) (dep : ℕ) : Prop :=
  ∃ q, s.proposal dep = some q ∧ q.state.hasExecuted = true

/-- `dep`, once executed, is not pruned past its deadline and its number is not given out. -/
def keepsExecuted (dep : ℕ) : Inputs H → State World → Prop
  | .invoke env call, s => ∀ p, s.proposal dep = some p → p.state.hasExecuted = true →
      ¬ (dep ∈ call.prunes ∧ p.IsExpired env) ∧
      ¬ (call.opening ≠ none ∧ ∃ count, s.proposalCount = some count ∧ dep = (count + 1) % 2 ^ 64)
  | .outside _ _, _ => True

/-- `p` sees `dep` as met: the check of its prerequisites answers as if `dep` were none of
them. -/
def State.SeesMet (s : State World) (p : Proposal) (dep : ℕ) : Prop :=
  ensureDependenciesMet s p
    = ensureDependenciesMet s { p with dependencies := p.dependencies.filter (· ≠ dep) }

/-- A prerequisite on record as executed is met. -/
theorem State.Executed.seesMet (h : s.Executed dep) : s.SeesMet p dep := by
  obtain ⟨q, hq, hdone⟩ := h
  unfold State.SeesMet ensureDependenciesMet
  dsimp only
  induction p.dependencies with
  | nil => rfl
  | cons x rest ih =>
      by_cases hx : x = dep
      · subst hx
        have hload : s.load x = .ok q := by simp [State.load, hq]
        rw [List.filter_cons_of_neg (by simp)]
        rw [dependenciesExecuted, hload, ok_bind, require_pos hdone, ok_bind]
        exact ih
      · rw [List.filter_cons_of_pos (by simp [hx])]
        unfold dependenciesExecuted
        rw [ih]

/-- A step keeps a proposal executed. -/
theorem State.Executed.step {i : Inputs H} (h : s.Executed dep) (hkeeps : keepsExecuted dep i s)
    (hstep : (machine H).step i s s') : s'.Executed dep := by
  cases i with
  | outside time w =>
      obtain ⟨_, rfl⟩ := hstep
      exact h
  | invoke env call =>
      obtain ⟨p, hp, hdone⟩ := h
      obtain ⟨hunpruned, hfresh⟩ := hkeeps p hp hdone
      rcases (exec_change hstep dep).stays hp hdone with hexecuted | hpruned | hreused
      · exact hexecuted
      · exact absurd hpruned hunpruned
      · exact absurd hreused hfresh

/-- **An executed prerequisite stays met**, as long as nobody prunes it past its deadline and
its number is not given out again. -/
theorem executed_stays_met {deps : List ℕ}
    (hpath : (machine H).Path anyInput (tr₁ ++ e :: tr₂) s t)
    (hexecutes : executes e = some (dep, deps))
    (hkeeps : ∀ q ∈ tr₂, keepsExecuted dep q.input q.pre) :
    s.Executed dep ∧ ∀ p, s.SeesMet p dep := by
  have hexecuted : s.Executed dep := by
    have hstep := hpath.stepped (e := e) (by simp)
    refine hpath.after (Q := fun _ s => s.Executed dep) ?_ ?_
    · obtain ⟨_, _, p, _, _, _, _, w, _, _, _, _, hpost⟩ := executes_ok hstep hexecutes
      rw [hpost]
      exact ⟨_, Function.update_self .., rfl⟩
    · intro tr q hpart _ _ hstep hexecuted
      exact hexecuted.step (hkeeps q (hpart.subset (by simp))) hstep
  exact ⟨hexecuted, fun _ => hexecuted.seesMet⟩

/-! ## Two ends of a run -/

/-- The first proposal is executed. -/
def executing : Script Call := [(signedBy 4 [1], .execute (.account 1) 1)]

theorem executing_path : ∃ e, executes e = some (1, []) ∧
    (machine referenceHost).Path anyInput
      ((deployment referenceHost).trace deployed chaining ++ [e])
      (play (play deployed chaining) executing) 4 := by
  have hchaining : (deployment referenceHost).plays deployed 0 chaining = true := by decide
  have hplays : (deployment referenceHost).plays (play deployed chaining) 3 executing = true := by
    decide
  have hpath := Deployment.path_playing (Deployment.path_trace deployed_fresh hchaining) hplays
  refine ⟨_, ?_, hpath⟩
  decide

/-- It is closed at once. -/
def closing : Script Call := [(signedBy 5 [1], .close (.account 1) 1)]

/-- Closed, it is still met. -/
theorem executed_stays_met_closed :
    (play (play (play deployed chaining) executing) closing).Executed 1 := by
  obtain ⟨e, hexecutes, hpath⟩ := executing_path
  have hplays : (deployment referenceHost).plays (play (play deployed chaining) executing) 4 closing
      = true := by decide
  have hclosed := Deployment.path_playing hpath hplays
  rw [List.append_assoc] at hclosed
  refine (executed_stays_met hclosed hexecutes ?_).1
  intro q hq
  rw [List.mem_singleton.1 hq]
  intro p _ _
  exact ⟨fun hpruned => List.not_mem_nil hpruned.1, fun hcreated => hcreated.1 rfl⟩

/-- Anybody prunes it at its deadline. -/
def pruning : Script Call := [(signedBy 1000 [], .pruneExpired 1)]

/-- **Pruned, it is met no more**, and the second proposal waits for a record that is gone. -/
theorem not_executed_stays_met :
    ¬ ∀ tr₁ e tr₂ s t dep deps, (machine referenceHost).Path anyInput (tr₁ ++ e :: tr₂) s t →
      executes e = some (dep, deps) → ∀ id p, s.proposal id = some p → dep ∈ p.dependencies →
        s.SeesMet p dep := by
  intro h
  obtain ⟨e, hexecutes, hpath⟩ := executing_path
  have hplays : (deployment referenceHost).plays (play (play deployed chaining) executing) 4 pruning
      = true := by decide
  have hpruned := Deployment.path_playing hpath hplays
  rw [List.append_assoc] at hpruned
  have hrecord : ((play (play (play deployed chaining) executing) pruning).proposal 2).map
      (fun p => (p.dependencies,
        (ensureDependenciesMet (play (play (play deployed chaining) executing) pruning) p).isOk))
      = some ([1], false) := by decide
  obtain ⟨p, hp, hp'⟩ := Option.map_eq_some_iff.1 hrecord
  rw [Prod.mk.injEq] at hp'
  obtain ⟨hdeps, hunmet⟩ := hp'
  have hmet := h _ _ _ _ _ 1 [] hpruned hexecutes 2 p hp (by simp [hdeps])
  have hnone : p.dependencies.filter (· ≠ 1) = [] := by simp [hdeps]
  rw [State.SeesMet, hnone] at hmet
  rw [hmet] at hunmet
  cases hunmet

end ProposalContract
end Astroid
