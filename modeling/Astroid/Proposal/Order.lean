import Astroid.Lib.Precedence
import Astroid.Lib.Records
import Astroid.Proposal.Changes

/-!
# Prerequisites execute first

A proposal lists prerequisites that were on record when it was created, under smaller
numbers, so no chain of prerequisites comes back to where it began.  It executes only while
each of them is on record as executed, and a record says so only where the run executed it:
whatever was cancelled, failed, expired or purged in between, the log of executions is
ordered (`dependency_order`).
-/

namespace Astroid
namespace ProposalContract

open Outcome Machine Precedence

variable {World : Type} {H : ProposalHost World} {env : Env H.self} {s s' : State World}
  {tr : List (Entry (State World) (Inputs H))} {e : Entry (State World) (Inputs H)} {t id : ℕ}
  {p : Proposal} {call : Call}

/-- `dep` is a prerequisite of the proposal on record under `id`. -/
def State.Requires (s : State World) (id dep : ℕ) : Prop :=
  ∃ p, s.proposal id = some p ∧ dep ∈ p.dependencies

/-- The proposal an entry of a run created, with its prerequisites. -/
def declares (e : Entry (State World) (Inputs H)) : Option (ℕ × List ℕ) :=
  match e.input with
  | .invoke _ (.create ..) =>
      e.post.proposalCount.bind fun id => (e.post.proposal id).map fun p => (id, p.dependencies)
  | _ => none

/-- The proposal an entry of a run executed, with its prerequisites. -/
def executes (e : Entry (State World) (Inputs H)) : Option (ℕ × List ℕ) :=
  match e.input with
  | .invoke _ (.execute _ id) =>
      (e.post.proposal id).bind fun p =>
        if p.state = .executed then some (id, p.dependencies) else none
  | _ => none

/-! ## One step -/

/-- The prerequisites are met when each of them is on record as executed. -/
theorem ensureDependenciesMet_eq_ok {u : Unit} : ensureDependenciesMet s p = .ok u ↔
    ∀ dep ∈ p.dependencies, ∃ q, s.proposal dep = some q ∧ q.state.hasExecuted = true := by
  unfold ensureDependenciesMet
  induction p.dependencies with
  | nil => simp [dependenciesExecuted]
  | cons dep rest ih =>
      rw [List.forall_mem_cons, ← ih]
      simp only [dependenciesExecuted, State.load, bind_eq_ok, okOr_eq_ok, require_eq_ok]
      constructor
      · rintro ⟨q, hq, _, hdone, hrest⟩
        exact ⟨⟨q, hq, hdone⟩, hrest⟩
      · rintro ⟨⟨q, hq, hdone⟩, hrest⟩
        exact ⟨q, hq, (), hdone, hrest⟩

/-- A proposal that `create` recorded is the one it declared. -/
theorem declares_of_creation (h : exec H env s call = .ok s') (hcall : call.opening ≠ none)
    (hcreation : Creation s id p) (hp : s'.proposal id = some p) :
    declares (H := H) ⟨s, .invoke env call, s'⟩ = some (id, p.dependencies) := by
  have hcounted : s'.proposalCount = some id := by
    cases exec_effect h with
    | settled hnone => exact absurd hnone hcall
    | opened id' holding _ hopens =>
        obtain ⟨count, hcount, rfl⟩ := hcreation.number
        obtain ⟨count', hcount', rfl⟩ := hopens.number
        rw [hcount, Option.some.injEq] at hcount'
        exact hcount' ▸ hopens.counted
    | failed _ _ _ hfail => exact absurd (by rw [hfail]; rfl) hcall
  cases call with
  | create => simp [declares, hcounted, hp]
  | _ => exact absurd rfl hcall

/-- What an entry that executed a proposal found and left. -/
theorem executes_ok {deps : List ℕ} (hstep : (machine H).step e.input e.pre e.post)
    (h : executes e = some (id, deps)) :
    ∃ env caller p multisig threshold approvals weight w,
      e.input = .invoke env (.execute caller id) ∧ e.pre.proposal id = some p ∧
      p.dependencies = deps ∧ Execution H env e.pre id p multisig threshold approvals weight ∧
      e.post = { e.pre with world := w }.store id
        { p with approvals := approvals, approvalWeight := weight, state := .executed } := by
  obtain ⟨pre, input, post⟩ := e
  cases input with
  | outside time w => cases h
  | invoke env call =>
      cases call with
      | execute caller id' =>
          have hstep : execute H env pre caller id' = .ok post := hstep
          obtain ⟨q, hq, hexecuted⟩ := Option.bind_eq_some_iff.1 h
          split at hexecuted
          · rename_i hstate
            cases hexecuted
            obtain ⟨p, hp, ⟨hexpired, rfl⟩ |
              ⟨multisig, threshold, n, weight, hexecution, w, _, rfl⟩⟩ := execute_ok hstep
            · -- an expired proposal is left expired
              rw [show post.proposal id = some q from hq, Option.some.injEq] at hp
              rw [← hp, hstate] at hexpired
              cases hexpired
            · have hq' : q = _ := Option.some.inj (hq.symm.trans (Function.update_self ..))
              exact ⟨env, caller, p, multisig, threshold, n, weight, w, rfl, hp, by rw [hq'],
                hexecution, rfl⟩
          · cases hexecuted
      | _ => cases h

/-- A call that executed a proposal counts as its execution. -/
theorem executes_of_execution {caller : Address} {p' : Proposal} (hp' : s'.proposal id = some p')
    (hstate : p'.state = .executed) :
    executes (H := H) ⟨s, .invoke env (.execute caller id), s'⟩ = some (id, p'.dependencies) := by
  simp [executes, hp', hstate]

/-! ## Runs -/

/-- What a run says of the prerequisites in the state it reached. -/
structure Traced (tr : List (Entry (State World) (Inputs H))) (s : State World) : Prop where
  declared : ∀ id p, s.proposal id = some p → p.dependencies.Nodup ∧
    ∃ q ∈ tr, declares q = some (id, p.dependencies) ∧
      ∀ dep ∈ p.dependencies, dep < id ∧ q.pre.proposal dep ≠ none
  executed : ∀ id p, s.proposal id = some p → p.state.hasExecuted = true →
    (id, p.dependencies) ∈ log executes tr
  ordered : Ordered (log executes tr)

theorem Traced.invoke (h : Traced tr s) (hstep : exec H env s call = .ok s') :
    Traced (tr ++ [⟨s, .invoke env call, s'⟩]) s' := by
  have hmachine : (machine H).step (.invoke env call) s s' := hstep
  refine ⟨?_, ?_, ?_⟩
  · intro id p' hp'
    have hchange := exec_change hstep id
    rw [hp'] at hchange
    rcases hchange.terms with ⟨hcall, hcreation⟩ | ⟨p, hp, hterms⟩
    · refine ⟨hcreation.prerequisites, _, List.mem_append_right _ (List.mem_singleton_self _), ?_⟩
      exact ⟨declares_of_creation hstep hcall hcreation hp', hcreation.backwards⟩
    · rw [hterms.dependencies]
      obtain ⟨hnodup, q, hq, hdeclares, hbackwards⟩ := h.declared id p hp
      exact ⟨hnodup, q, List.mem_append_left _ hq, hdeclares, hbackwards⟩
  · intro id p' hp' hdone
    have hchange := exec_change hstep id
    rw [hp'] at hchange
    rcases hchange.hasExecuted hdone with
      ⟨p, hp, hdone, hterms⟩ | ⟨caller, _, _, _, _, _, rfl, _, _, hstate, _⟩
    · rw [hterms.dependencies]
      exact mem_log_append (h.executed id p hp hdone)
    · rw [log_some (executes_of_execution hp' hstate)]
      simp
  · cases hexecutes : executes (H := H) ⟨s, .invoke env call, s'⟩ with
    | none =>
        rw [log_none hexecutes]
        exact h.ordered
    | some x =>
        obtain ⟨id, deps⟩ := x
        rw [log_some hexecutes]
        refine h.ordered.append ?_
        obtain ⟨_, _, p, _, _, _, _, _, _, _, hdeps, hexecution, _⟩ := executes_ok hmachine hexecutes
        -- each prerequisite is on record as executed, and so in the log
        intro dep hdep
        rw [← hdeps] at hdep
        obtain ⟨q, hq, hdone⟩ := ensureDependenciesMet_eq_ok.1 hexecution.met dep hdep
        exact List.mem_map.2 ⟨_, h.executed dep q hq hdone, rfl⟩

theorem traced_of_path (hpath : (machine H).Path anyInput tr s t) : Traced tr s := by
  refine hpath.history (P := fun tr s _ => Traced tr s) ?_ ?_
  · intro s t hfresh
    refine ⟨?_, ?_, ordered_nil⟩
    · intro id p hp
      rw [hfresh.proposal id] at hp
      cases hp
    · intro id p hp
      rw [hfresh.proposal id] at hp
      cases hp
  · intro tr s t i s' _ htraced _ _ hstep
    cases i with
    | invoke env call => exact htraced.invoke hstep
    | outside time w =>
        obtain ⟨_, rfl⟩ := hstep
        have hquiet : log executes (tr ++ [⟨s, .outside time w, { s with world := w }⟩])
            = log executes tr := log_none rfl
        refine ⟨?_, ?_, ?_⟩
        · intro id p hp
          obtain ⟨hnodup, q, hq, hdeclares⟩ := htraced.declared id p hp
          exact ⟨hnodup, q, List.mem_append_left _ hq, hdeclares⟩
        · rw [hquiet]
          exact htraced.executed
        · rw [hquiet]
          exact htraced.ordered

/-! ## The law -/

/-- **Prerequisites execute first.**  The prerequisites on record are distinct smaller numbers
that were on record when the proposal was created, and no chain of them comes back to where
it began.  When a proposal executes, all it requires, through whatever chain of executed
prerequisites, had executed in the run before. -/
theorem dependency_order (hpath : (machine H).Path anyInput tr s t) :
    (∀ id p, s.proposal id = some p → p.dependencies.Nodup ∧
      ∃ q ∈ tr, declares q = some (id, p.dependencies) ∧
        ∀ dep ∈ p.dependencies, dep < id ∧ q.pre.proposal dep ≠ none) ∧
    (∀ id, ¬ Relation.TransGen s.Requires id id) ∧
    ∀ tr₁ e id deps, tr₁ ++ [e] <+: tr → executes e = some (id, deps) →
      ∀ dep, Relation.TransGen (Precedence.Requires (log executes (tr₁ ++ [e]))) id dep →
        ∃ q ∈ tr₁, ∃ deps', executes q = some (dep, deps') := by
  have htraced := traced_of_path hpath
  refine ⟨htraced.declared, ?_, ?_⟩
  · refine acyclic ?_
    rintro id dep ⟨p, hp, hdep⟩
    obtain ⟨_, _, _, _, hbackwards⟩ := htraced.declared id p hp
    exact (hbackwards dep hdep).1
  · intro tr₁ e id deps hpart hexecutes dep hrequires
    rw [log_some hexecutes] at hrequires
    have hlog : log executes tr₁ ++ [(id, deps)] <+: log executes tr := by
      rw [← log_some hexecutes]
      exact hpart.filterMap executes
    obtain ⟨x, hx, rfl⟩ := List.mem_map.1 (htraced.ordered.transitive hlog hrequires)
    obtain ⟨q, hq, hqx⟩ := List.mem_filterMap.1 hx
    exact ⟨q, hq, x.2, hqx⟩

/-- A second proposal that lists the first one twice; the first is approved. -/
def chaining : Script Call :=
  opening ++ [(signedBy 2 [1], .create (.account 1) "org" "wallet" "policy"
      [.account 1, .account 2, .account 3] [1, 1] 2 [] 0 0),
    (signedBy 3 [1], .approve (.account 1) 1), (signedBy 3 [2], .approve (.account 2) 1)]

/-- The first proposal is executed, and the second approved. -/
def chained : Script Call :=
  chaining ++ [(signedBy 4 [1], .execute (.account 1) 1),
    (signedBy 5 [1], .approve (.account 1) 2), (signedBy 5 [2], .approve (.account 2) 2)]

/-- The second proposal is executed after the first. -/
theorem dependency_order_chain : ∃ q ∈ (deployment referenceHost).trace deployed chained,
    ∃ deps, executes q = some (1, deps) := by
  have hchained : (deployment referenceHost).plays deployed 0 chained = true := by decide
  have hexecuting : (deployment referenceHost).plays (play deployed chained) 5
      [(signedBy 6 [1], .execute (.account 1) 2)] = true := by decide
  have hpath := Deployment.path_playing (Deployment.path_trace deployed_fresh hchained) hexecuting
  have hexecutes : executes (H := referenceHost) ⟨play deployed chained,
      .invoke (signedBy 6 [1]) (.execute (.account 1) 2),
      play (play deployed chained) [(signedBy 6 [1], .execute (.account 1) 2)]⟩ = some (2, [1]) := by
    decide
  have hlogged : (2, [1]) ∈ log executes ((deployment referenceHost).trace deployed chained ++ [_]) :=
    List.mem_filterMap.2 ⟨_, List.mem_append_right _ (List.mem_singleton_self _), hexecutes⟩
  exact (dependency_order hpath).2.2 _ _ 2 [1] List.prefix_rfl hexecutes 1
    (.single ⟨[1], hlogged, List.mem_singleton_self 1⟩)

end ProposalContract
end Astroid
